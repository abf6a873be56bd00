import AiterCommerce.Server.Footprint

namespace AiterCommerce.Guarantees.Spend

open AiterCommerce.Core Concurrent Server Machine
open Spec (Ensures Harmless)

abbrev History := List (Event appSignature Data Request)

def charged (agentId : String) : Event appSignature Data Request → Int
  | ⟨_, .chargeAgent a amount, .ok (), _⟩ => if a = agentId then amount.units.toInt else 0
  | _ => 0

def registers (agentId : String) : Event appSignature Data Request → Bool
  | ⟨_, .registerAgent identity _, _, _⟩ => identity.id = agentId
  | _ => false

def chargedSince (agentId : String) : History → Int
  | [] => 0
  | e :: h => if registers agentId e then 0 else charged agentId e + chargedSince agentId h

def Fits (o : Op) (d : Data) : Bool :=
  match o with
  | .chargeAgent agentId amount => (d.agents.get agentId).all (fun record =>
      decide (record.spendLimit.currency = amount.currency →
        record.spent.units.toInt + amount.units.toInt < 2 ^ 63))
  | _ => true

theorem fits_chargeAgent {a : String} {amount : Amount} {d : Data} {record : AgentRecord}
    (h : d.agents.get a = some record) : Fits (.chargeAgent a amount) d = true ↔
      (record.spendLimit.currency = amount.currency →
        record.spent.units.toInt + amount.units.toInt < 2 ^ 63) := by
  simp only [Fits, h, Option.all_some, decide_eq_true_eq]

structure Capped (s : State) : Prop where
  priced : ∀ id session, s.data.sessions.get id = some session →
    0 ≤ session.totals.total.units.toInt
  spent : ∀ agentId record, s.data.agents.get agentId = some record →
    chargedSince agentId s.history = record.spent.units.toInt ∧
      0 ≤ record.spent.units.toInt ∧
      record.spent.units.toInt ≤ record.spendLimit.units.toInt

/-- Operations whose amounts are not negative. -/
def Fair : Op → Prop
  | .chargeAgent _ amount => 0 ≤ amount.units.toInt
  | .registerAgent _ spendLimit => 0 ≤ spendLimit.units.toInt
  | .sessions (.create _ session) | .sessions (.update _ session) =>
      0 ≤ session.totals.total.units.toInt
  | _ => True

variable {s : State} {i : Name Request}

theorem chargedSince_perform_of_other {o : Op} (agentId : String)
    (hc : ∀ a amount, o ≠ .chargeAgent a amount) (hr : ∀ identity limit, o ≠ .registerAgent identity limit) :
    chargedSince agentId (s.perform Op.exec i o).history = chargedSince agentId s.history := by
  cases o <;> simp_all [chargedSince, registers, charged]

theorem Capped.perform_of_frame {o : Op} (hs : Capped s)
    (hse : (o.exec s.data).2.sessions = s.data.sessions) (ha : (o.exec s.data).2.agents = s.data.agents)
    (hc : ∀ a amount, o ≠ .chargeAgent a amount) (hr : ∀ identity limit, o ≠ .registerAgent identity limit) :
    Capped (s.perform Op.exec i o) where
  priced id session h := hs.priced id session (by rwa [Shared.perform_data, hse] at h)
  spent agentId record h := by
    rw [chargedSince_perform_of_other agentId hc hr]
    exact hs.spent agentId record (by rwa [Shared.perform_data, ha] at h)

theorem Capped.perform_sessions {o : StoreOp CheckoutSession} (hs : Capped s)
    (hf : Fair (.sessions o)) : Capped (s.perform Op.exec i (.sessions o)) where
  priced id session h := by
    rcases StoreOp.get_exec h with h | ⟨rfl, -⟩ | ⟨rfl, -⟩
    · exact hs.priced id session h
    · exact hf
    · exact hf
  spent agentId record h := by
    rw [chargedSince_perform_of_other agentId (by simp) (by simp)]
    exact hs.spent agentId record h

theorem Capped.perform_registerAgent {identity : AgentIdentity} {spendLimit : Amount}
    (hs : Capped s) (hf : 0 ≤ spendLimit.units.toInt) :
    Capped (s.perform Op.exec i (.registerAgent identity spendLimit)) where
  priced := hs.priced
  spent agentId record h := by
    rw [Shared.perform_data] at h
    change (s.data.agents.register identity spendLimit).get agentId = some record at h
    rw [AgentRegistry.get_register] at h
    split at h
    next ha =>
      cases h
      have hz : (Amount.zero spendLimit.currency).units.toInt = 0 := rfl
      simp [chargedSince, registers, ha, hz, hf]
    next ha =>
      have hr := hs.spent agentId record h
      simpa [chargedSince, registers, charged, Ne.symm ha] using hr

theorem charged_ok {agentId a : String} {amount : Amount} {d : Data} (u : Unit) :
    charged agentId ⟨i, .chargeAgent a amount, .ok u, d⟩ =
      if a = agentId then amount.units.toInt else 0 := rfl

theorem Capped.perform_chargeAgent {a : String} {amount : Amount} (hs : Capped s)
    (hf : 0 ≤ amount.units.toInt) (hfit : Fits (.chargeAgent a amount) s.data) :
    Capped (s.perform Op.exec i (.chargeAgent a amount)) where
  priced := hs.priced
  spent agentId record h := by
    change (s.data.agents.chargeAgent a amount).2.get agentId = some record at h
    change chargedSince agentId
      (⟨i, .chargeAgent a amount, (s.data.agents.chargeAgent a amount).1, s.data⟩ :: s.history) = _ ∧ _
    cases hch : s.data.agents.chargeAgent a amount with
    | mk r registry =>
        rw [hch] at h
        cases r with
        | error message =>
            obtain rfl := AgentRegistry.chargeAgent_error hch
            simpa [chargedSince, registers, charged] using hs.spent agentId record h
        | ok u =>
            obtain ⟨old, ho, hcur, hlim, rfl⟩ := AgentRegistry.chargeAgent_ok hch
            obtain ⟨hsum, hnn, hcap⟩ := hs.spent a old ho
            have hlt := (fits_chargeAgent ho).mp hfit hcur
            have hexact := toInt_add_of_lt (by omega) hlt
            rw [Int64.lt_iff_toInt_lt, hexact] at hlim
            rw [AgentRegistry.get_setSpent] at h
            split at h
            next ha =>
              subst ha
              rw [ho] at h
              cases h
              simp only [chargedSince, registers, Bool.false_eq_true, if_false, charged_ok, if_true,
                hexact, hsum]
              omega
            next ha =>
              simpa [chargedSince, registers, charged, Ne.symm ha] using hs.spent agentId record h

theorem Capped.perform {o : Op} (hs : Capped s) (hf : Fair o) (hfit : Fits o s.data) :
    Capped (s.perform Op.exec i o) := by
  cases o with
  | chargeAgent a amount => exact hs.perform_chargeAgent hf hfit
  | registerAgent identity spendLimit => exact hs.perform_registerAgent hf
  | sessions o => exact hs.perform_sessions hf
  | _ => exact hs.perform_of_frame rfl rfl (by simp) (by simp)

variable (ext : Platform) (st : AppState)

def spec : Spec (app ext st) where
  locks := discipline ext st
  inv := Capped
  allow _ o s := Fits o s.data
  drop_inv _ _ _ h _ _ := ⟨h.priced, h.spent⟩

def May (H : Set Lock) (o : Op) : Prop := Fair o ∧ ∀ l, o.need l → l ∈ H

theorem harmless : (spec ext st).Harmless i (fun _ => True) May :=
  .of_lasting (fun _ _ h => ⟨h.priced, h.spent⟩) (fun _ _ _ _ _ => trivial) (fun _ _ => trivial)
    (fun _ _ _ hm hi _ ha => ⟨hm.2, hi.perform hm.1 ha, trivial⟩)

variable {ext st}

theorem completeCheckout_ensures {agent : Option String} {id : String} {now issuedAt : Int64} :
    (spec ext st).Ensures i (fun _ _ => True) (completeCheckout agent id now issuedAt) s := by
  refine Server.completeCheckout_ensures (harmless ext st) ⟨trivial, by simp [Op.need]⟩
    ⟨trivial, by simp [Op.need]⟩ (fun s' session hi _ hH hse _ _ => ?_) trivial
  have hpos : 0 ≤ session.totals.total.units.toInt := hi.priced id session hse
  refine Ensures.of_respects (harmless ext st) ?_ trivial hH
  refine placeOrder_respects (by simp) (by simp) ?_ ?_ ?_ ?_ ?_ <;>
    simp [May, Fair, Op.need, hpos]

theorem cancelCheckout_ensures {id : String} :
    (spec ext st).Ensures i (fun _ _ => True) (cancelCheckout id) s := by
  refine Server.cancelCheckout_ensures (harmless ext st) ⟨trivial, by simp [Op.need]⟩
    (fun s' session m hi _ hH hse hm => ?_) trivial
  have hpos : 0 ≤ session.totals.total.units.toInt := hi.priced id session hse
  refine Ensures.of_respects (harmless ext st) (hm.mono ?_) trivial hH
  rintro H o ⟨rfl, rfl⟩
  simp [May, Fair, Op.need, hpos]

theorem computeTotals_nonneg (hst : st.Valid) {cart : Cart} {totals : Totals}
    (h : computeTotals cart st.priceOf noTax = .ok totals) : 0 ≤ totals.total.units.toInt := by
  obtain ⟨-, -, -, -, hu⟩ := computeTotals_noTax_ok h
  exact hu ▸ exactSubtotal_nonneg (fun _ _ _ hp => AppState.priceOf_nonneg hst hp)

def CapNonneg (q : Request) : Bool :=
  match q.call with
  | .registerAgent _ spendLimit => decide (0 ≤ spendLimit.units.toInt)
  | _ => true

theorem handler_holds (hst : st.Valid) {q : Request} (hq : CapNonneg q) :
    (spec ext st).Holds i (fun _ _ => True) (handler ext st q) s := by
  obtain ⟨agent, call⟩ := q
  have rest (hp : ∀ o, Request.performs ⟨agent, call⟩ o → Fair o) :
      (spec ext st).Holds i (fun _ _ => True) (handler ext st ⟨agent, call⟩) s :=
    (Spec.Holds.of_respects (harmless ext st)
      ((handler_respects ext st ⟨agent, call⟩).mono (fun H o ho => ⟨hp o ho.1, ho.2⟩)) trivial
      (by simp)).mono (fun _ _ _ => trivial)
  cases call with
  | createCheckoutSession body now =>
      refine holds_replyTo.mpr ((Ensures.of_respects (harmless ext st)
        (createCheckoutSession_respects ?_ ?_ ?_ ?_) trivial (by simp)).mono (fun _ _ _ => trivial))
      · simp [May, Fair, Op.need]
      · simp [May, Fair, Op.need]
      · simp [May, Fair, Op.need]
      · intro id cart totals ht
        exact ⟨computeTotals_nonneg hst ht, by simp [Op.need]⟩
  | completeCheckout id now issuedAt => exact holds_replyTo.mpr completeCheckout_ensures
  | cancelCheckout id => exact holds_replyTo.mpr cancelCheckout_ensures
  | registerAgent identity spendLimit =>
      refine rest (fun o ho => ?_)
      obtain rfl : o = .registerAgent identity spendLimit := ho
      exact of_decide_eq_true (p := 0 ≤ spendLimit.units.toInt) hq
  | _ =>
      refine rest (fun o ho => ?_)
      cases o <;> first | trivial | simp [Server.Request.performs] at ho

def NonnegCaps : Action Request → Bool
  | .spawn q => CapNonneg q
  | _ => true

def ChargesFit (c : Configuration) (a : Action Request) : Bool :=
  NonnegCaps a && match a with
    | .step n =>
        match c.procs[n]? with
        | some ⟨_, some (.op o _)⟩ => Fits o c.shared.data
        | _ => true
    | _ => true

theorem admits (hst : st.Valid) : (spec ext st).Admits (fun c a => ChargesFit c a = true) where
  spawn c q ha _ _ := handler_holds hst (by simpa [ChargesFit, NonnegCaps] using ha)
  step c n q o k ha hn _ := by simpa [ChargesFit, NonnegCaps, hn, spec] using ha
  drop _ _ _ _ _ _ _ _ := trivial
  stable _ _ _ _ _ _ := trivial

theorem capped_start (crypto : Crypto) : Capped (.start (Data.new crypto)) where
  priced id session h := by cases h
  spent agentId record h := by
    change ((AgentRegistry.empty.register (demoAgent crypto) ⟨demoAgentCap, .USD⟩).get agentId) =
      some record at h
    rw [AgentRegistry.get_register] at h
    split at h
    · cases h
      have hcap : (0 : Int) ≤ demoAgentCap.toInt := by decide
      exact ⟨rfl, le_refl 0, hcap⟩
    · cases h

/-- The ledger of an agent: what was charged is what it says, within the cap. -/
def CapKept (c : Configuration) : Prop :=
  ∀ agentId record, c.shared.data.agents.get agentId = some record →
    chargedSince agentId c.shared.history = record.spent.units.toInt ∧
      chargedSince agentId c.shared.history ≤ record.spendLimit.units.toInt

/-- A signed completion that would go above the cap is refused and leaves the
state alone, exactly when its charge fits in 64 bits. -/
def OverCapRefused (c : Configuration) : Prop :=
  ∀ agentId record id session now issuedAt, c.shared.data.agents.get agentId = some record →
    c.shared.data.orders.get (orderKey id) = none →
    c.shared.data.sessions.get id = some session →
    ¬ (session.status ≠ .paid ∧ session.status.isTerminal = true) →
    record.spendLimit.units.toInt <
      chargedSince agentId c.shared.history + session.totals.total.units.toInt →
    ((∃ message, (completeCheckout (some agentId) id now issuedAt).run Op.exec c.shared.data =
      (.error (.spendLimit message), c.shared.data)) ↔
        Fits (.chargeAgent agentId session.totals.total) c.shared.data = true)

section Charge

variable {d : Data} {agentId : String} {record : AgentRecord} {amount : Amount}

theorem chargeAgent_refused (hr : d.agents.get agentId = some record)
    (hs : 0 ≤ record.spent.units.toInt) (ha : 0 ≤ amount.units.toInt)
    (hl : record.spendLimit.units.toInt < record.spent.units.toInt + amount.units.toInt)
    (hfit : Fits (.chargeAgent agentId amount) d = true) :
    ∃ message, d.agents.chargeAgent agentId amount = (.error message, d.agents) := by
  simp only [AgentRegistry.chargeAgent, hr]
  split
  · exact ⟨_, rfl⟩
  next hc =>
    have hexact := toInt_add_of_lt (by omega) ((fits_chargeAgent hr).mp hfit (not_not.mp hc))
    rw [if_pos (by rw [Int64.lt_iff_toInt_lt, hexact]; exact hl)]
    exact ⟨_, rfl⟩

/-- A sum that leaves the 64 bits comes back negative, below every cap. -/
theorem chargeAgent_wraps (hr : d.agents.get agentId = some record)
    (hs : 0 ≤ record.spent.units.toInt)
    (hl : record.spent.units.toInt ≤ record.spendLimit.units.toInt)
    (hfit : Fits (.chargeAgent agentId amount) d = false) :
    ∃ registry, d.agents.chargeAgent agentId amount = (.ok (), registry) := by
  have hn : ¬ (record.spendLimit.currency = amount.currency →
      record.spent.units.toInt + amount.units.toInt < 2 ^ 63) := by
    rw [← fits_chargeAgent hr, hfit]
    exact Bool.false_ne_true
  obtain ⟨hc, hge⟩ := Classical.not_imp.mp hn
  have hneg := toInt_add_neg_of_ge (not_lt.mp hge)
  simp only [AgentRegistry.chargeAgent, hr]
  rw [if_neg (not_not.mpr hc), if_neg (by rw [Int64.lt_iff_toInt_lt]; omega)]
  exact ⟨_, rfl⟩

end Charge

theorem Capped.overCapRefused {c : Configuration} (hc : Capped c.shared) : OverCapRefused c := by
  intro agentId record id session now issuedAt hr ho hse hst hover
  obtain ⟨hsum, hnn, hle⟩ := hc.spent agentId record hr
  have hrun : (completeCheckout (some agentId) id now issuedAt).run Op.exec c.shared.data =
      (placeOrder (some agentId) id session now issuedAt).run Op.exec c.shared.data := by
    rw [completeCheckout_run]
    simp only [ho, hse, if_neg hst]
  rw [hrun]
  cases hfit : Fits (.chargeAgent agentId session.totals.total) c.shared.data with
  | true =>
      obtain ⟨message, hch⟩ := chargeAgent_refused hr hnn (hc.priced id session hse)
        (hsum ▸ hover) hfit
      exact iff_of_true ⟨message, placeOrder_run_refused hch⟩ rfl
  | false =>
      obtain ⟨registry, hch⟩ := chargeAgent_wraps hr hnn hle hfit
      refine iff_of_false ?_ Bool.false_ne_true
      rintro ⟨message, hm⟩
      have hcharge : charge (some agentId) session.totals.total c.shared.data.agents =
        (.ok (), registry) := hch
      rw [placeOrder_run_charged hcharge ho (by simp [hse]) hst] at hm
      cases hm

/-- Along every run whose charges fit in 64 bits, the ledger of each agent is
exact and within its cap, and a completion above the cap is refused. -/
theorem spend_cap_of_fits (ext : Platform) (st : AppState) (hst : st.Valid) {c : Configuration}
    (h : (app ext st).Runs (fun c a => ChargesFit c a = true) (.start (Data.new ext.crypto)) c) :
    CapKept c ∧ OverCapRefused c := by
  have hc : Capped c.shared :=
    (Spec.Sound.runs (admits hst) (Spec.sound_start (capped_start ext.crypto)) h).inv
  refine ⟨fun agentId record hr => ?_, hc.overCapRefused⟩
  obtain ⟨hsum, -, hle⟩ := hc.spent agentId record hr
  exact ⟨hsum, hsum ▸ hle⟩

def dearCatalog : AppState := ⟨[⟨"p-1", "Jet", ⟨Int64.maxValue, .USD⟩, "", [], none, 10, none⟩], none⟩

/-- An agent without an effective cap completes two sessions of one cart. -/
def twoCompletions : List (Action Request) :=
  System.enter 0 ⟨none, .registerAgent ⟨"agent-1", ⟨[]⟩⟩ ⟨Int64.maxValue, .USD⟩⟩ 3 ++
  System.enter 1 ⟨some "agent-1", .createCart ⟨none, [⟨"p-1", 1⟩]⟩⟩ 4 ++
  System.enter 2 ⟨some "agent-1", .createCheckoutSession ⟨"cart-0", none⟩ 0⟩ 10 ++
  System.enter 3 ⟨some "agent-1", .createCheckoutSession ⟨"cart-0", none⟩ 0⟩ 10 ++
  System.enter 4 ⟨some "agent-1", .completeCheckout "cs-1" 0 0⟩ 15 ++
  System.enter 5 ⟨some "agent-1", .completeCheckout "cs-2" 0 0⟩ 15

theorem dearCatalog_valid : dearCatalog.Valid := by
  intro p hp
  obtain rfl := List.mem_singleton.mp hp
  decide

/-- The cap is not kept where the sum of two charges wraps: the second one is accepted
and the agent has spent less than nothing. -/
theorem spend_cap_fails : ¬ ∀ (ext : Platform) (st : AppState) (c : Configuration), st.Valid →
    (app ext st).Runs (fun _ a => NonnegCaps a = true) (.start (Data.new ext.crypto)) c →
      CapKept c := by
  intro h
  have hplay : (((app .bare dearCatalog).play (fun _ a => NonnegCaps a = true)
      (.start (Data.new Platform.bare.crypto)) twoCompletions).map (fun c =>
        ((c.shared.data.agents.get "agent-1").map (fun r => r.spent.units.toInt),
          chargedSince "agent-1" c.shared.history))) = some (some (-2), 2 ^ 64 - 2) := by
    decide +kernel
  obtain ⟨c, hc, heq⟩ := Option.map_eq_some_iff.mp hplay
  obtain ⟨hspent, hsum⟩ := Prod.mk.inj heq
  obtain ⟨record, hr, hu⟩ := Option.map_eq_some_iff.mp hspent
  have hkept := (h .bare dearCatalog c dearCatalog_valid (System.play_runs hc) "agent-1" record hr).1
  rw [hsum, hu] at hkept
  exact absurd hkept (by decide)

/-- One purchase of the dear product is within the cap and exact. -/
theorem spend_cap_of_fits_first : ∃ c : Configuration,
    (c.shared.data.orders.get "ord-cs-1").isSome ∧ CapKept c ∧ OverCapRefused c := by
  have hplay : (((app .bare dearCatalog).play (fun c a => ChargesFit c a = true)
      (.start (Data.new Platform.bare.crypto)) (twoCompletions.take 47)).map (fun c =>
        (c.shared.data.orders.get "ord-cs-1").isSome)) = some true := by
    decide +kernel
  obtain ⟨c, hc, ho⟩ := Option.map_eq_some_iff.mp hplay
  exact ⟨c, ho, spend_cap_of_fits .bare dearCatalog dearCatalog_valid (System.play_runs hc)⟩

end AiterCommerce.Guarantees.Spend
