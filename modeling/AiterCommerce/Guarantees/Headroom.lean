import AiterCommerce.Concurrent.Alone
import AiterCommerce.Guarantees.Money
import AiterCommerce.Guarantees.Spend

namespace AiterCommerce.Guarantees.Headroom

open AiterCommerce.Core Concurrent Server Machine
open Books (Happening)

def TotalsNonneg (c : Configuration) : Prop :=
  ∀ key o, c.shared.data.orders.get key = some o → 0 ≤ o.totals.total.units.toInt

/-- An agent that was not registered in between has spent no less than before. -/
def SpentGrows (c c' : Configuration) : Prop :=
  ∀ news, c'.shared.history = news ++ c.shared.history → ∀ agentId record,
    (∀ e ∈ news, Spend.registers agentId e = false) →
    c.shared.data.agents.get agentId = some record →
      ∃ record', c'.shared.data.agents.get agentId = some record' ∧
        record.spent.units.toInt ≤ record'.spent.units.toInt

def ChargesFit (c : Configuration) (a : Action Request) : Bool :=
  match a with
  | .step n =>
      match c.procs[n]? with
      | some ⟨_, some (.op o _)⟩ => Spend.Fits o c.shared.data
      | _ => true
  | _ => true

def NonnegPriced (st : AppState) : Prop :=
  ∀ id price, st.priceOf id = some price → 0 ≤ price.units.toInt

variable {ext : Platform} {st : AppState} {s : State} {c c' : Configuration}

theorem kept_of_runs {A : Configuration → Action Request → Prop}
    (h : (app ext st).Runs A (.start (Data.new ext.crypto)) c) : Money.Kept ext st c.shared :=
  (Spec.Sound.runs Money.admits (Spec.sound_start (P := Money.spec ext st) (Money.kept_start _))
    (h.mono (fun _ _ _ => trivial))).inv

section Nonneg

variable (hst : NonnegPriced st)
include hst

theorem total_nonneg {x : CheckoutSession} (hx : Money.Priced st x) :
    0 ≤ x.totals.total.units.toInt := by
  rw [hx.total.2]
  exact exactSubtotal_nonneg (fun li _ price hp => hst li.productId price hp)

theorem totalsNonneg_of_kept (h : Money.Kept ext st c.shared) : TotalsNonneg c := by
  intro key o ho
  obtain ⟨k, x, -, -, -, hx, ht⟩ := h.placed key o ho
  rw [ht]
  exact total_nonneg hst (h.priced k x hx)

theorem charge_nonneg {A : Configuration → Action Request → Prop}
    (h : (app ext st).Runs A (.start (Data.new ext.crypto)) c) {i : Name Request} {a : String}
    {amount : Amount} {u : Unit} {d : Data}
    (he : ⟨i, .chargeAgent a amount, .ok u, d⟩ ∈ c.shared.history) : 0 ≤ amount.units.toInt := by
  have hk := kept_of_runs h
  have hp := h.performs (handler_all ext st) _ he
  obtain ⟨n, agent, call⟩ := i
  cases call with
  | completeCheckout id now issuedAt =>
      have hc : Books.chargeOf id ⟨⟨n, agent, .completeCheckout id now issuedAt⟩,
          .chargeAgent a amount, .ok u, d⟩ = some (a, amount) := if_pos rfl
      obtain ⟨x, hx, ht⟩ := hk.charged _ he id a amount hc
      exact ht ▸ total_nonneg hst (hk.priced id x hx)
  | _ => simp [Request.performs] at hp

end Nonneg

def Spends (agentId : String) (d d' : Data) : Prop :=
  ∀ record, d.agents.get agentId = some record →
    ∃ record', d'.agents.get agentId = some record' ∧
      record.spent.units.toInt ≤ record'.spent.units.toInt

theorem Spends.refl (agentId : String) (d : Data) : Spends agentId d d :=
  fun record h => ⟨record, h, le_rfl⟩

theorem Spends.trans {agentId : String} {a b d : Data} (h : Spends agentId a b)
    (h' : Spends agentId b d) : Spends agentId a d := by
  intro record hr
  obtain ⟨record', hr', hle⟩ := h record hr
  obtain ⟨record'', hr'', hle'⟩ := h' record' hr'
  exact ⟨record'', hr'', hle.trans hle'⟩

theorem spends_chargeAgent {agentId a : String} {amount : Amount} {d : Data}
    (hfit : Spend.Fits (.chargeAgent a amount) d = true)
    (hnn : (d.agents.chargeAgent a amount).1 = .ok () → 0 ≤ amount.units.toInt) :
    Spends agentId d (Op.exec (.chargeAgent a amount) d).2 := by
  intro record hr
  change ∃ record', (d.agents.chargeAgent a amount).2.get agentId = some record' ∧ _
  cases hch : d.agents.chargeAgent a amount with
  | mk r registry =>
      rw [hch] at hnn
      cases r with
      | error message =>
          obtain rfl := AgentRegistry.chargeAgent_error hch
          exact ⟨record, hr, le_rfl⟩
      | ok u =>
          obtain ⟨old, ho, hcur, -, rfl⟩ := AgentRegistry.chargeAgent_ok hch
          have hpos := hnn rfl
          have hlow := old.spent.units.le_toInt
          have hlt := (Spend.fits_chargeAgent ho).mp hfit hcur
          have hsum := toInt_add_of_lt (by omega) hlt
          dsimp only
          rw [AgentRegistry.get_setSpent]
          split
          next ha =>
            subst ha
            obtain rfl := Option.some.inj (ho.symm.trans hr)
            refine ⟨_, by rw [ho]; rfl, ?_⟩
            dsimp only
            omega
          next => exact ⟨record, hr, le_rfl⟩

theorem spends_exec {agentId : String} {e : Happening}
    (hresp : e.resp = (Op.exec e.op e.before).1) (hfit : Spend.Fits e.op e.before = true)
    (hreg : Spend.registers agentId e = false)
    (hnn : ∀ a amount, e.op = .chargeAgent a amount →
      (e.before.agents.chargeAgent a amount).1 = .ok () → 0 ≤ amount.units.toInt) :
    Spends agentId e.before (Op.exec e.op e.before).2 := by
  obtain ⟨i, o, resp, d⟩ := e
  cases o with
  | chargeAgent a amount => exact spends_chargeAgent hfit (hnn a amount rfl)
  | registerAgent identity limit =>
      intro record hr
      have hne : agentId ≠ identity.id := by
        rintro rfl
        simp [Spend.registers] at hreg
      change ∃ record', (d.agents.register identity limit).get agentId = some record' ∧ _
      rw [AgentRegistry.get_register, if_neg hne]
      exact ⟨record, hr, le_rfl⟩
  | _ => exact Spends.refl agentId d

theorem fits_of_chargesFit {n : Nat} {q : Request} {o : Op} {k : o.Resp → Prog appSignature Reply}
    (ha : ChargesFit c (.step n) = true) (hn : c.procs[n]? = some ⟨q, some (.op o k)⟩) :
    Spend.Fits o c.shared.data = true := by
  simpa only [ChargesFit, hn] using ha

theorem spentGrows_of_runs (hst : NonnegPriced st)
    (h : (app ext st).Runs (fun c a => ChargesFit c a = true) (.start (Data.new ext.crypto)) c)
    (h' : (app ext st).Runs (fun c a => ChargesFit c a = true) c c') : SpentGrows c c' := by
  intro news hnews agentId record hreg hr
  obtain ⟨news', hnews', hleads, hg⟩ := h'.leads
    (G := fun e => e.resp = (Op.exec e.op e.before).1 ∧ Spend.Fits e.op e.before = true)
    (fun c n q o k ha hn => ⟨rfl, fits_of_chargesFit ha hn⟩)
  obtain rfl := List.append_cancel_right (hnews.symm.trans hnews')
  refine hleads.related (Spends.refl agentId) Spends.trans (fun e he => ?_) record hr
  obtain ⟨hresp, hfit⟩ := hg e he
  refine spends_exec hresp hfit (hreg e he) (fun a amount hop hok => ?_)
  obtain ⟨i, o, resp, d⟩ := e
  obtain rfl : o = .chargeAgent a amount := hop
  obtain rfl : resp = .ok () := hresp.trans hok
  have hmem : ⟨i, .chargeAgent a amount, .ok (), d⟩ ∈ c'.shared.history := by
    rw [hnews]
    exact List.mem_append_left _ he
  exact charge_nonneg hst (h.trans h') hmem

/-- Where no served price is negative no order ever is, and along runs whose
charges fit in 64 bits no agent gets anything back. -/
theorem headroom_of_nonneg (ext : Platform) (products : List Product)
    (razorpay : Option RazorpaySettings) (hprices : NonnegPriced (AppState.new products razorpay)) :
    (∀ c, (app ext (AppState.new products razorpay)).Runs (fun _ _ => True)
      (.start (Data.new ext.crypto)) c → TotalsNonneg c) ∧
    ∀ c c', (app ext (AppState.new products razorpay)).Runs (fun c a => ChargesFit c a = true)
      (.start (Data.new ext.crypto)) c →
      (app ext (AppState.new products razorpay)).Runs (fun c a => ChargesFit c a = true) c c' →
        SpentGrows c c' :=
  ⟨fun _ h => totalsNonneg_of_kept hprices (kept_of_runs h),
    fun _ _ h h' => spentGrows_of_runs hprices h h'⟩

/-- A product that pays its buyer, which nothing on the way refuses. -/
def refundProduct : Product := ⟨"p-1", "Refund", ⟨-500, .USD⟩, "", [], none, 10, none⟩

def purchase : List (Action Request) :=
  System.enter 0 ⟨some demoAgentId, .createCart ⟨none, [⟨"p-1", 1⟩]⟩⟩ 4 ++
  System.enter 1 ⟨some demoAgentId, .createCheckoutSession ⟨"cart-0", none⟩ 0⟩ 10 ++
  System.enter 2 ⟨some demoAgentId, .completeCheckout "cs-1" 0 0⟩ 15

theorem new_singleton (p : Product) : AppState.new [p] none = ⟨[p], none⟩ := by
  rw [AppState.new, List.mergeSort_singleton]

/-- One purchase of it stores an order below zero, and takes what the agent has
spent below zero. -/
theorem negative_price_mints :
    (¬ ∀ (ext : Platform) (products : List Product) (razorpay : Option RazorpaySettings) c,
      (app ext (AppState.new products razorpay)).Runs (fun _ _ => True)
        (.start (Data.new ext.crypto)) c → TotalsNonneg c) ∧
    ¬ ∀ (ext : Platform) (products : List Product) (razorpay : Option RazorpaySettings) c c',
      (app ext (AppState.new products razorpay)).Runs (fun _ _ => True)
        (.start (Data.new ext.crypto)) c →
      (app ext (AppState.new products razorpay)).Runs (fun _ _ => True) c c' → SpentGrows c c' := by
  have hplay : (((app .bare ⟨[refundProduct], none⟩).play (fun _ _ => True)
      (.start (Data.new Platform.bare.crypto)) purchase).map (fun c =>
        ((c.shared.data.orders.get "ord-cs-1").map (fun o => o.totals.total.units.toInt),
          (c.shared.data.agents.get demoAgentId).map (fun r => r.spent.units.toInt),
          c.shared.history.all (fun e => !Spend.registers demoAgentId e)))) =
      some (some (-500), some (-500), true) := by
    decide +kernel
  obtain ⟨c, hc, heq⟩ := Option.map_eq_some_iff.mp hplay
  obtain ⟨horder, hrest⟩ := Prod.mk.inj heq
  obtain ⟨hspent, hreg⟩ := Prod.mk.inj hrest
  have hruns := System.play_runs hc
  rw [← new_singleton] at hruns
  constructor
  · intro h
    obtain ⟨o, ho, hu⟩ := Option.map_eq_some_iff.mp horder
    have hnn := h .bare [refundProduct] none c hruns "ord-cs-1" o ho
    omega
  · intro h
    obtain ⟨record', hr', hle⟩ := h .bare [refundProduct] none _ c .refl hruns c.shared.history
      (List.append_nil _).symm demoAgentId _ (by simpa using hreg)
      (AgentRegistry.get_register _ (demoAgent Platform.bare.crypto) ⟨demoAgentCap, .USD⟩ demoAgentId)
    rw [hr'] at hspent
    have hneg : record'.spent.units.toInt = -500 := Option.some.inj hspent
    rw [hneg] at hle
    exact absurd hle (by decide)

/-- The shop's mug bought once, by the demo agent. -/
theorem headroom_of_nonneg_mug : ∃ c : Configuration,
    (c.shared.data.agents.get demoAgentId).map (fun r => r.spent.units.toInt) = some 500 ∧
      TotalsNonneg c ∧ SpentGrows (.start (Data.new Platform.bare.crypto)) c := by
  have hmug : AppState.new AppState.shop.products none = AppState.shop := new_singleton _
  have hprices : NonnegPriced (AppState.new AppState.shop.products none) := by
    intro id price hp
    rw [hmug] at hp
    obtain ⟨p, hf, rfl⟩ := Option.map_eq_some_iff.mp hp
    obtain rfl := List.mem_singleton.mp (List.mem_of_find?_eq_some hf)
    decide
  have hplay : (((app .bare AppState.shop).play (fun c a => ChargesFit c a = true)
      (.start (Data.new Platform.bare.crypto)) purchase).map (fun c =>
        (c.shared.data.agents.get demoAgentId).map (fun r => r.spent.units.toInt))) =
      some (some 500) := by
    decide +kernel
  obtain ⟨c, hc, hspent⟩ := Option.map_eq_some_iff.mp hplay
  have hruns := System.play_runs hc
  rw [← hmug] at hruns
  obtain ⟨htotals, hgrows⟩ := headroom_of_nonneg .bare AppState.shop.products none hprices
  exact ⟨c, hspent, htotals c (hruns.mono (fun _ _ _ => trivial)), hgrows _ c .refl hruns⟩

end AiterCommerce.Guarantees.Headroom
