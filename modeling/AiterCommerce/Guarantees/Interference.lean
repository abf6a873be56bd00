import AiterCommerce.Guarantees.Books
import AiterCommerce.Guarantees.Reconcile

namespace AiterCommerce.Guarantees.Interference

open AiterCommerce.Core Concurrent Server Machine
open Books (orderKey_injective)
open Reconcile (untimed)

structure Completion where
  agent : Option String
  session : String
  now : Int64
  issuedAt : Int64

def Completion.run (x : Completion) (d : Data) : Except ApiError Order × Data :=
  (completeCheckout x.agent x.session x.now x.issuedAt).run Op.exec d

def runAll (d : Data) (xs : List Completion) : Data := xs.foldl (fun d x => (x.run d).2) d

structure Alike (agentId id : String) (a b : Data) : Prop where
  order : b.orders.get (orderKey id) = a.orders.get (orderKey id)
  session : b.sessions.get id = a.sessions.get id
  agent : b.agents.get agentId = a.agents.get agentId

/-- The session is stored, has no order yet and may be completed. -/
structure Open (id : String) (session : CheckoutSession) (d : Data) : Prop where
  order : d.orders.get (orderKey id) = none
  stored : d.sessions.get id = some session
  completable : ¬ (session.status ≠ .paid ∧ session.status.isTerminal = true)

def placed (x : Completion) (session : CheckoutSession) (registry : AgentRegistry) (d : Data) :
    Data :=
  let order := Order.new (orderKey x.session) x.session session.totals x.now
  { d with
    agents := registry
    orders := d.orders.insert (orderKey x.session) order
    sessions := d.sessions.insert x.session { session with status := .paid }
    checkoutsCompleted := d.checkoutsCompleted + 1
    audit := issue x.agent order session.totals.total x.issuedAt d.audit }

variable {x y : Completion} {d d' : Data} {agentId id : String} {session : CheckoutSession}
  {registry : AgentRegistry}

theorem run_of_open (h : Open x.session session d)
    (hch : charge x.agent session.totals.total d.agents = (.ok (), registry)) :
    x.run d = (.ok (Order.new (orderKey x.session) x.session session.totals x.now),
      placed x session registry d) := by
  rw [Completion.run, completeCheckout_run]
  simp only [h.order, h.stored, if_neg h.completable]
  exact placeOrder_run_charged hch h.order (by rw [h.stored]; rfl) h.completable

theorem run_of_refused (h : Open x.session session d) {message : String}
    (hch : charge x.agent session.totals.total d.agents = (.error message, registry)) :
    x.run d = (.error (.spendLimit message), d) := by
  obtain ⟨agent, id, now, issuedAt⟩ := x
  cases agent with
  | none => cases hch
  | some agentId =>
      rw [Completion.run, completeCheckout_run]
      simp only [h.order, h.stored, if_neg h.completable]
      exact placeOrder_run_refused hch

theorem run_of_not_open (h : ∀ session, ¬ Open x.session session d) : (x.run d).2 = d := by
  rw [Completion.run, completeCheckout_run]
  cases ho : d.orders.get (orderKey x.session) with
  | some order => rfl
  | none =>
      cases hs : d.sessions.get x.session with
      | none => rfl
      | some session =>
          dsimp only
          rw [if_pos]
          by_contra hc
          exact h session ⟨ho, hs, hc⟩

theorem run_cases (x : Completion) (d : Data) : (x.run d).2 = d ∨
    ∃ session registry, Open x.session session d ∧
      charge x.agent session.totals.total d.agents = (.ok (), registry) ∧
      (x.run d).2 = placed x session registry d := by
  by_cases h : ∃ session, Open x.session session d
  · obtain ⟨session, h⟩ := h
    cases hch : charge x.agent session.totals.total d.agents with
    | mk r registry =>
        cases r with
        | error message => exact .inl (by rw [run_of_refused h hch])
        | ok u => exact .inr ⟨session, registry, h, hch, by rw [run_of_open h hch]⟩
  · exact .inl (run_of_not_open (fun session hs => h ⟨session, hs⟩))

theorem get_charge_ne {amount : Amount} {r : Except String Unit} (h : x.agent ≠ some agentId)
    (hch : charge x.agent amount d.agents = (r, registry)) :
    registry.get agentId = d.agents.get agentId := by
  cases ha : x.agent with
  | none =>
      rw [ha] at hch
      cases hch
      rfl
  | some other =>
      rw [ha] at hch h
      have hne : agentId ≠ other := fun he => h (by rw [he])
      have hget := AgentRegistry.get_chargeAgent_ne d.agents hne amount
      rwa [show d.agents.chargeAgent other amount = (r, registry) from hch] at hget

theorem alike_run (hs : x.session ≠ id) (ha : x.agent ≠ some agentId) (d : Data) :
    Alike agentId id d (x.run d).2 := by
  rcases run_cases x d with h | ⟨session, registry, -, hch, h⟩
  · rw [h]
    exact ⟨rfl, rfl, rfl⟩
  · rw [h]
    refine ⟨?_, ?_, get_charge_ne ha hch⟩
    · exact InMemoryStore.get_insert_ne _ (fun he => hs (orderKey_injective he).symm) _
    · exact InMemoryStore.get_insert_ne _ (Ne.symm hs) _

theorem Alike.trans {a b c : Data} (h : Alike agentId id a b) (h' : Alike agentId id b c) :
    Alike agentId id a c :=
  ⟨h'.order.trans h.order, h'.session.trans h.session, h'.agent.trans h.agent⟩

theorem alike_runAll {xs : List Completion}
    (h : ∀ x ∈ xs, x.session ≠ id ∧ x.agent ≠ some agentId) (d : Data) :
    Alike agentId id d (runAll d xs) := by
  induction xs generalizing d with
  | nil => exact ⟨rfl, rfl, rfl⟩
  | cons x xs ih =>
      have hx := h x (List.mem_cons_self ..)
      exact (alike_run hx.1 hx.2 d).trans
        (ih (fun y hy => h y (List.mem_cons_of_mem _ hy)) (x.run d).2)

theorem Alike.open (h : Alike agentId id d d') (ho : Open id session d) : Open id session d' :=
  ⟨h.order.trans ho.order, h.session.trans ho.stored, ho.completable⟩

/-- What an agent's completion of a session answers, and its record after it. -/
def outcome (agentId id : String) (now issuedAt : Int64) (d : Data) :
    Except ApiError Order × Option AgentRecord :=
  let r := Completion.run ⟨some agentId, id, now, issuedAt⟩ d
  (r.1.map untimed, r.2.agents.get agentId)

theorem Alike.outcome (h : Alike agentId id d d') (now issuedAt now' issuedAt' : Int64) :
    outcome agentId id now' issuedAt' d' = outcome agentId id now issuedAt d := by
  by_cases ho : ∃ session, Open id session d
  · obtain ⟨session, ho⟩ := ho
    obtain ⟨hres, hget⟩ := AgentRegistry.chargeAgent_congr h.agent session.totals.total
    cases hch : d.agents.chargeAgent agentId session.totals.total with
    | mk r registry =>
        cases hch' : d'.agents.chargeAgent agentId session.totals.total with
        | mk r' registry' =>
            rw [hch, hch'] at hres hget
            obtain rfl : r' = r := hres
            cases r' with
            | error message =>
                rw [Interference.outcome, Interference.outcome,
                  run_of_refused (x := ⟨some agentId, id, now, issuedAt⟩) ho hch,
                  run_of_refused (x := ⟨some agentId, id, now', issuedAt'⟩) (h.open ho) hch']
                exact congrArg _ h.agent
            | ok u =>
                rw [Interference.outcome, Interference.outcome,
                  run_of_open (x := ⟨some agentId, id, now, issuedAt⟩) ho hch,
                  run_of_open (x := ⟨some agentId, id, now', issuedAt'⟩) (h.open ho) hch']
                exact congrArg _ hget
  · have ho' : ∀ session, ¬ Open id session d := fun session hs => ho ⟨session, hs⟩
    rw [Interference.outcome, Interference.outcome, Completion.run, Completion.run,
      completeCheckout_run, completeCheckout_run]
    dsimp only
    rw [h.order, h.session]
    cases hord : d.orders.get (orderKey id) with
    | some order => exact congrArg _ h.agent
    | none =>
        cases hs : d.sessions.get id with
        | none => exact congrArg _ h.agent
        | some session =>
            dsimp only
            by_cases hc : session.status ≠ .paid ∧ session.status.isTerminal = true
            · rw [if_pos hc, if_pos hc]
              exact congrArg _ h.agent
            · exact absurd ⟨hord, hs, hc⟩ (ho' session)

section Commute

/-- The two sums fit together under what the agent has left. -/
def FitTogether (agentId : String) (x y : Completion) (d : Data) : Prop :=
  ∀ record session session', d.agents.get agentId = some record →
    d.sessions.get x.session = some session → d.sessions.get y.session = some session' →
    0 ≤ session.totals.total.units.toInt ∧ 0 ≤ session'.totals.total.units.toInt ∧
      record.spent.units.toInt + session.totals.total.units.toInt +
        session'.totals.total.units.toInt ≤ record.spendLimit.units.toInt

structure SameBooks (a b : Data) : Prop where
  orders : a.orders = b.orders
  sessions : a.sessions = b.sessions
  agents : a.agents = b.agents
  receipts : (a.audit.entries.map AuditEntry.entry).Perm (b.audit.entries.map AuditEntry.entry)

theorem SameBooks.refl (d : Data) : SameBooks d d := ⟨rfl, rfl, rfl, .refl _⟩

theorem chargeAgent_of_fits {record : AgentRecord} {amount : Amount}
    (hr : d.agents.get agentId = some record) (hc : record.spendLimit.currency = amount.currency)
    (ha : 0 ≤ amount.units.toInt)
    (hfit : record.spent.units.toInt + amount.units.toInt ≤ record.spendLimit.units.toInt) :
    d.agents.chargeAgent agentId amount =
      (.ok (), d.agents.setSpent agentId (record.spent.units + amount.units)) := by
  have hlow := record.spent.units.le_toInt
  have hhigh := record.spendLimit.units.toInt_lt
  have hsum := toInt_add_of_lt (a := record.spent.units) (b := amount.units) (by omega) (by omega)
  have hle : ¬ record.spendLimit.units < record.spent.units + amount.units := by
    rw [Int64.lt_iff_toInt_lt, hsum]
    omega
  simp only [AgentRegistry.chargeAgent, hr, if_neg (not_not.mpr hc), if_neg hle]

theorem open_run (h : y.session ≠ id) : Open id session (y.run d).2 ↔ Open id session d := by
  rcases run_cases y d with hd | ⟨session', registry, -, -, hd⟩
  · rw [hd]
  · have ho : (y.run d).2.orders.get (orderKey id) = d.orders.get (orderKey id) := by
      rw [hd]
      exact InMemoryStore.get_insert_ne _ (fun he => h (orderKey_injective he).symm) _
    have hs : (y.run d).2.sessions.get id = d.sessions.get id := by
      rw [hd]
      exact InMemoryStore.get_insert_ne _ (Ne.symm h) _
    exact ⟨fun k => ⟨ho ▸ k.order, hs ▸ k.stored, k.completable⟩,
      fun k => ⟨ho.trans k.order, hs.trans k.stored, k.completable⟩⟩

theorem spendLimit_run (y : Completion) (d : Data) (agentId : String) :
    ((y.run d).2.agents.get agentId).map AgentRecord.spendLimit =
      (d.agents.get agentId).map AgentRecord.spendLimit := by
  rcases run_cases y d with hd | ⟨session, registry, -, hch, hd⟩
  · rw [hd]
  · rw [hd]
    by_cases ha : y.agent = some agentId
    · rw [ha] at hch
      obtain ⟨record, hr, -, -, rfl⟩ := AgentRegistry.chargeAgent_ok hch
      change ((d.agents.setSpent agentId _).get agentId).map _ = _
      rw [AgentRegistry.get_setSpent, if_pos rfl, hr]
      rfl
    · exact congrArg _ (get_charge_ne ha hch)

/-- The completion cannot place an order, however much the agent has left. -/
def Barred (agentId : String) (x : Completion) (d : Data) : Prop :=
  (∀ session, ¬ Open x.session session d) ∨ ∃ session, Open x.session session d ∧
    ∀ limit ∈ (d.agents.get agentId).map AgentRecord.spendLimit,
      limit.currency ≠ session.totals.total.currency

theorem Barred.run (hx : x.agent = some agentId) (h : Barred agentId x d) : (x.run d).2 = d := by
  rcases h with h | ⟨session, ho, hne⟩
  · exact run_of_not_open h
  · cases hch : charge x.agent session.totals.total d.agents with
    | mk r registry =>
        cases r with
        | error message => rw [run_of_refused ho hch]
        | ok u =>
            rw [hx] at hch
            obtain ⟨record, hr, hc, -, -⟩ := AgentRegistry.chargeAgent_ok hch
            exact absurd hc (hne record.spendLimit (by rw [hr]; rfl))

theorem Barred.after (h : Barred agentId x d) (hne : y.session ≠ x.session) :
    Barred agentId x (y.run d).2 := by
  rcases h with h | ⟨session, ho, hlimit⟩
  · exact .inl (fun session hs => h session ((open_run hne).mp hs))
  · exact .inr ⟨session, (open_run hne).mpr ho, by rwa [spendLimit_run]⟩

theorem exists_of_not_barred (h : ¬ Barred agentId x d) : ∃ session record,
    Open x.session session d ∧ d.agents.get agentId = some record ∧
      record.spendLimit.currency = session.totals.total.currency := by
  rw [Barred, not_or, not_forall] at h
  obtain ⟨⟨session, ho⟩, hlimit⟩ := h
  have ho := not_not.mp ho
  by_contra hnone
  refine hlimit ⟨session, ho, fun limit hl hc => hnone ?_⟩
  obtain ⟨record, hr, rfl⟩ := Option.map_eq_some_iff.mp hl
  exact ⟨session, record, ho, hr, hc⟩

theorem sameBooks_of_barred (hx : x.agent = some agentId) (h : Barred agentId x d)
    (hne : y.session ≠ x.session) : runAll d [x, y] = runAll d [y, x] := by
  change (y.run (x.run d).2).2 = (x.run (y.run d).2).2
  rw [h.run hx, (h.after hne).run hx]

theorem runAll_placed {session' : CheckoutSession} {record : AgentRecord}
    (hx : x.agent = some agentId) (hy : y.agent = some agentId) (hne : x.session ≠ y.session)
    (ho : Open x.session session d) (ho' : Open y.session session' d)
    (hr : d.agents.get agentId = some record)
    (hc : record.spendLimit.currency = session.totals.total.currency)
    (hc' : record.spendLimit.currency = session'.totals.total.currency)
    (hn : 0 ≤ session.totals.total.units.toInt) (hn' : 0 ≤ session'.totals.total.units.toInt)
    (hfit : record.spent.units.toInt + session.totals.total.units.toInt +
      session'.totals.total.units.toInt ≤ record.spendLimit.units.toInt) :
    runAll d [x, y] = placed y session'
      ((d.agents.setSpent agentId (record.spent.units + session.totals.total.units)).setSpent
        agentId (record.spent.units + session.totals.total.units + session'.totals.total.units))
      (placed x session
        (d.agents.setSpent agentId (record.spent.units + session.totals.total.units)) d) := by
  have hlow := record.spent.units.le_toInt
  have hhigh := record.spendLimit.units.toInt_lt
  have hsum := toInt_add_of_lt (a := record.spent.units) (b := session.totals.total.units)
    (by omega) (by omega)
  have hrun := run_of_open ho (by
    rw [hx]
    exact chargeAgent_of_fits hr hc hn (by omega))
  have ho2 : Open y.session session' (x.run d).2 := (open_run hne).mpr ho'
  change (y.run (x.run d).2).2 = _
  rw [hrun] at ho2 ⊢
  have hr2 : (d.agents.setSpent agentId
      (record.spent.units + session.totals.total.units)).get agentId = some { record with
        spent := ⟨record.spent.units + session.totals.total.units, record.spent.currency⟩ } := by
    rw [AgentRegistry.get_setSpent, if_pos rfl, hr]
    rfl
  have hfit2 : (record.spent.units + session.totals.total.units).toInt +
      session'.totals.total.units.toInt ≤ record.spendLimit.units.toInt := by
    rw [hsum]
    exact hfit
  rw [run_of_open ho2 (by
    rw [hy]
    exact chargeAgent_of_fits hr2 hc' hn' hfit2)]
  rfl

theorem setSpent_setSpent (registry : AgentRegistry) (agentId : String) (u v : Int64) :
    (registry.setSpent agentId u).setSpent agentId v = registry.setSpent agentId v := by
  refine AgentRegistry.ext (fun id => ?_)
  simp only [AgentRegistry.get_setSpent, if_true]
  by_cases hid : id = agentId
  · rw [if_pos hid, if_pos hid, Option.map_map]
    rfl
  · rw [if_neg hid, if_neg hid, if_neg hid]

theorem sameBooks_comm (hx : x.agent = some agentId) (hy : y.agent = some agentId)
    (hne : x.session ≠ y.session) (hfit : FitTogether agentId x y d) :
    SameBooks (runAll d [x, y]) (runAll d [y, x]) := by
  by_cases hbx : Barred agentId x d
  · rw [sameBooks_of_barred hx hbx (Ne.symm hne)]
    exact .refl _
  · by_cases hby : Barred agentId y d
    · rw [sameBooks_of_barred hy hby hne]
      exact .refl _
    · obtain ⟨session, record, ho, hr, hc⟩ := exists_of_not_barred hbx
      obtain ⟨session', record', ho', hr', hc'⟩ := exists_of_not_barred hby
      obtain rfl := Option.some.inj (hr.symm.trans hr')
      obtain ⟨hn, hn', hsum⟩ := hfit record session session' hr ho.stored ho'.stored
      rw [runAll_placed hx hy hne ho ho' hr hc hc' hn hn' hsum,
        runAll_placed hy hx (Ne.symm hne) ho' ho hr hc' hc hn' hn (by omega)]
      constructor
      · exact InMemoryStore.insert_comm _ (fun he => hne (orderKey_injective he)) _ _
      · exact InMemoryStore.insert_comm _ hne _ _
      · change (d.agents.setSpent _ _).setSpent _ _ = (d.agents.setSpent _ _).setSpent _ _
        rw [setSpent_setSpent, setSpent_setSpent, Int64.add_assoc, Int64.add_assoc,
          Int64.add_comm session.totals.total.units]
      · simp only [placed, issue, hx, hy, AppendOnlyLog.push_entries, List.map_append,
          List.map_cons, List.map_nil, List.append_assoc]
        exact .append_left _ (List.Perm.swap _ _ [])

end Commute

/-- Completions of other sessions by other agents change nothing about the
completion of a session, and those of one agent that fit together commute. -/
theorem agents_apart (d : Data) :
    (∀ agentId id xs, (∀ x ∈ xs, Completion.session x ≠ id ∧ x.agent ≠ some agentId) →
      ∀ now issuedAt now' issuedAt', outcome agentId id now' issuedAt' (runAll d xs) =
        outcome agentId id now issuedAt d) ∧
    ∀ agentId x y, x.agent = some agentId → y.agent = some agentId → x.session ≠ y.session →
      FitTogether agentId x y d → SameBooks (runAll d [x, y]) (runAll d [y, x]) :=
  ⟨fun _ _ _ h => (alike_runAll h d).outcome, fun _ _ _ => sameBooks_comm⟩

section Example

/-- The demo agent and another one, a cart, and two sessions of it at five
dollars each. -/
def twoSessions : Data :=
  let d := (Op.exec (.registerAgent ⟨"agent-2", ⟨[]⟩⟩ ⟨600, .USD⟩) (Data.new Platform.bare.crypto)).2
  let d := ((createCart .shop ⟨none, [⟨"p-1", 1⟩]⟩).run Op.exec d).2
  let d := ((createCheckoutSession .shop ⟨"cart-0", none⟩ 0).run Op.exec d).2
  ((createCheckoutSession .shop ⟨"cart-0", none⟩ 0).run Op.exec d).2

theorem twoSessions_fit : FitTogether demoAgentId ⟨some demoAgentId, "cs-1", 0, 0⟩
    ⟨some demoAgentId, "cs-2", 0, 0⟩ twoSessions := by
  have hagent : (twoSessions.agents.get demoAgentId).map (fun r =>
      (r.spent.units.toInt, r.spendLimit.units.toInt)) = some (0, 1000000000) := by decide +kernel
  have hprice : (twoSessions.sessions.get "cs-1").map (fun x => x.totals.total.units.toInt) =
      some 500 := by decide +kernel
  have hprice' : (twoSessions.sessions.get "cs-2").map (fun x => x.totals.total.units.toInt) =
      some 500 := by decide +kernel
  intro record session session' hr hs hs'
  rw [hr] at hagent
  rw [hs] at hprice
  rw [hs'] at hprice'
  obtain ⟨hspent, hlimit⟩ := Prod.mk.inj (Option.some.inj hagent)
  have h1 : session.totals.total.units.toInt = 500 := Option.some.inj hprice
  have h2 : session'.totals.total.units.toInt = 500 := Option.some.inj hprice'
  omega

theorem agents_apart_two :
    (outcome demoAgentId "cs-1" 0 0 twoSessions).1.toOption.isSome = true ∧
    outcome demoAgentId "cs-1" 9 9
        (runAll twoSessions [⟨some "agent-2", "cs-2", 5, 5⟩, ⟨none, "cs-2", 6, 6⟩]) =
      outcome demoAgentId "cs-1" 0 0 twoSessions ∧
    SameBooks
      (runAll twoSessions [⟨some demoAgentId, "cs-1", 0, 0⟩, ⟨some demoAgentId, "cs-2", 0, 0⟩])
      (runAll twoSessions [⟨some demoAgentId, "cs-2", 0, 0⟩, ⟨some demoAgentId, "cs-1", 0, 0⟩]) := by
  refine ⟨by decide +kernel, (agents_apart twoSessions).1 _ _ _ ?_ 0 0 9 9,
    (agents_apart twoSessions).2 _ _ _ rfl rfl (by decide) twoSessions_fit⟩
  intro x hx
  simp only [List.mem_cons, List.not_mem_nil, or_false] at hx
  rcases hx with rfl | rfl
  · exact ⟨by decide, by decide⟩
  · exact ⟨by decide, by decide⟩

end Example

end AiterCommerce.Guarantees.Interference
