import AiterCommerce.Server.Footprint

namespace AiterCommerce.Guarantees.Expiry

open AiterCommerce.Core Concurrent Server
open Spec (Ensures Harmless)

abbrev Happening := Event appSignature Data Request

/-- The session was cancelled or has failed: the only state a completion turns down. -/
def closed (x : CheckoutSession) : Bool := decide (x.status ≠ .paid) && x.status.isTerminal

def refuses (registry : AgentRegistry) (agentId : String) (amount : Amount) : Bool :=
  (registry.get agentId).all (fun record => decide (record.spendLimit.currency ≠ amount.currency ∨
    record.spendLimit.units < record.spent.units + amount.units))

/-- The step after which a completion goes on to its end: without an agent it is
the look at an open session, with one the charge that is not refused. -/
def commits (agent : Option String) (o : Op) (x : CheckoutSession) (registry : AgentRegistry) :
    Bool :=
  match agent, o with
  | none, .sessions (.get _) => !closed x
  | some _, .chargeAgent a amount => !refuses registry a amount
  | _, _ => false

/-- A completion commits only before its session expires. -/
def Timely (q : Request) (o : Op) (d : Data) : Bool :=
  match q.call with
  | .completeCheckout id now _ => (d.sessions.get id).all (fun x =>
      !commits q.agent o x d.agents || decide (now ≤ x.expiresAt))
  | _ => true

def Effect : Happening → Bool
  | ⟨_, .orders (.create _ _), _, _⟩ | ⟨_, .chargeAgent _ _, .ok _, _⟩
  | ⟨_, .pushReceipt _, _, _⟩ => true
  | _ => false

def InTime (d : Data) (q : Request) : Prop :=
  ∃ id now issuedAt x, q.call = .completeCheckout id now issuedAt ∧
    d.sessions.get id = some x ∧ now ≤ x.expiresAt

def PlacedInTime (d : Data) (o : Order) : Prop :=
  ∃ x t, d.sessions.get o.checkoutSessionId = some x ∧ o.timeline = [⟨.placed, t⟩] ∧
    t ≤ x.expiresAt

structure OnTime (s : State) : Prop where
  effects : ∀ e ∈ s.history, Effect e = true → InTime s.data e.actor.request
  orders : ∀ e ∈ s.history, ∀ key o, e.op = .orders (.create key o) → PlacedInTime s.data o

section Refuses

variable {registry : AgentRegistry} {agentId : String} {amount : Amount}

theorem refuses_iff : refuses registry agentId amount = true ↔
    ∃ message, registry.chargeAgent agentId amount = (.error message, registry) := by
  rw [refuses, AgentRegistry.chargeAgent]
  cases registry.get agentId with
  | none => simp
  | some record =>
      rw [Option.all_some, decide_eq_true_eq]
      dsimp only
      split
      next hc => exact iff_of_true (.inl hc) ⟨_, rfl⟩
      next hc =>
        split
        next hl => exact iff_of_true (.inr hl) ⟨_, rfl⟩
        next hl => exact iff_of_false (by simp [hc, hl]) (by simp)

theorem chargeAgent_ok_of_not_refuses (h : refuses registry agentId amount = false) :
    ∃ registry', registry.chargeAgent agentId amount = (.ok (), registry') := by
  cases hch : registry.chargeAgent agentId amount with
  | mk r registry' =>
      cases r with
      | ok u => exact ⟨registry', rfl⟩
      | error message =>
          obtain rfl := AgentRegistry.chargeAgent_error hch
          rw [refuses_iff.mpr ⟨message, hch⟩] at h
          cases h

end Refuses

theorem closed_iff {x : CheckoutSession} :
    closed x = true ↔ x.status ≠ .paid ∧ x.status.isTerminal = true := by
  rw [closed, Bool.and_eq_true, decide_eq_true_eq]

section Alone

variable {agent : Option String} {id : String} {x : CheckoutSession} {now issuedAt : Int64}
  {d : Data}

def Untouched (d d' : Data) : Prop :=
  d'.orders = d.orders ∧ d'.agents = d.agents ∧ d'.audit = d.audit

/-- Whatever the clock says, a completion without an order does nothing exactly
when its session is closed or its agent's charge is refused. -/
theorem untouched_iff (ho : d.orders.get (orderKey id) = none) (hx : d.sessions.get id = some x) :
    Untouched d ((completeCheckout agent id now issuedAt).run Op.exec d).2 ↔
      closed x = true ∨ ∃ a, agent = some a ∧ refuses d.agents a x.totals.total = true := by
  rw [completeCheckout_run]
  simp only [ho, hx]
  split
  next hst => exact iff_of_true ⟨rfl, rfl, rfl⟩ (.inl (closed_iff.mpr hst))
  next hst =>
    have placed {registry : AgentRegistry}
        (hch : charge agent x.totals.total d.agents = (.ok (), registry)) :
        ¬ Untouched d ((placeOrder agent id x now issuedAt).run Op.exec d).2 := by
      rw [placeOrder_run_charged hch ho (by simp [hx]) hst]
      rintro ⟨horders, -⟩
      have hnew := congrArg (InMemoryStore.get · (orderKey id)) horders
      simp [ho] at hnew
    cases agent with
    | none => exact iff_of_false (placed rfl) (by simp [closed_iff, hst])
    | some a =>
        cases hr : refuses d.agents a x.totals.total with
        | true =>
            obtain ⟨message, hch⟩ := refuses_iff.mp hr
            rw [placeOrder_run_refused hch]
            exact iff_of_true ⟨rfl, rfl, rfl⟩ (.inr ⟨a, rfl, hr⟩)
        | false =>
            obtain ⟨registry, hch⟩ := chargeAgent_ok_of_not_refuses hr
            exact iff_of_false (placed hch) (by simp [closed_iff, hst, hr])

end Alone

def Later (a b : Data) : Prop :=
  ∀ k x, a.sessions.get k = some x →
    ∃ y, b.sessions.get k = some y ∧ y.expiresAt = x.expiresAt

theorem Later.refl (d : Data) : Later d d := fun _ x h => ⟨x, h, rfl⟩

theorem Later.trans {a b c : Data} (h : Later a b) (h' : Later b c) : Later a c := by
  intro k x hx
  obtain ⟨y, hy, hxy⟩ := h k x hx
  obtain ⟨z, hz, hyz⟩ := h' k y hy
  exact ⟨z, hz, hyz.trans hxy⟩

theorem InTime.later {a b : Data} {q : Request} (h : InTime a q) (hl : Later a b) : InTime b q := by
  obtain ⟨id, now, issuedAt, x, hq, hx, hle⟩ := h
  obtain ⟨y, hy, hxy⟩ := hl id x hx
  exact ⟨id, now, issuedAt, y, hq, hy, by rw [hxy]; exact hle⟩

theorem PlacedInTime.later {a b : Data} {o : Order} (h : PlacedInTime a o) (hl : Later a b) :
    PlacedInTime b o := by
  obtain ⟨x, t, hx, ho, hle⟩ := h
  obtain ⟨y, hy, hxy⟩ := hl _ x hx
  exact ⟨y, t, hy, ho, by rw [hxy]; exact hle⟩

/-- What must hold where a request performs an operation. -/
def Backed (q : Request) : Op → State → Prop
  | .sessions (.update k x), s =>
      ∃ y, s.data.sessions.get k = some y ∧ x.expiresAt = y.expiresAt
  | .orders (.create _ o), s => InTime s.data q ∧ PlacedInTime s.data o
  | .chargeAgent a amount, s =>
      (s.data.agents.chargeAgent a amount).1 = .ok () → InTime s.data q
  | .pushReceipt _, s => InTime s.data q
  | _, _ => True

variable {ext : Platform} {st : AppState} {s : State} {i : Name Request} {o : Op} {q : Request}

theorem Backed.later (h : Backed q o s) : Later s.data (o.exec s.data).2 := by
  cases o with
  | sessions o =>
      intro k x hx
      rcases StoreOp.get_exec_of_some o hx with hx' | ⟨y, rfl, hy⟩
      · exact ⟨x, hx', rfl⟩
      · obtain ⟨z, hz, hyz⟩ := h
        obtain rfl := Option.some.inj (hx.symm.trans hz)
        exact ⟨y, hy, hyz⟩
  | _ => exact Later.refl _

theorem Backed.inTime (h : Backed q o s) (he : Effect ⟨i, o, (o.exec s.data).1, s.data⟩ = true) :
    InTime s.data q := by
  cases o with
  | orders o =>
      cases o with
      | create key order => exact h.1
      | get key | update key order => cases he
  | chargeAgent a amount =>
      refine h ?_
      cases hch : s.data.agents.chargeAgent a amount with
      | mk r registry =>
          cases r with
          | ok u => rfl
          | error message =>
              have hresp : ((Op.chargeAgent a amount).exec s.data).1 = .error message :=
                congrArg Prod.fst hch
              rw [hresp] at he
              cases he
  | pushReceipt receipt => exact h
  | _ => cases he

theorem OnTime.perform (h : OnTime s) (hb : Backed i.request o s) :
    OnTime (s.perform Op.exec i o) where
  effects e he heff := by
    rcases List.mem_cons.mp he with rfl | he
    · exact (hb.inTime heff).later hb.later
    · exact (h.effects e he heff).later hb.later
  orders e he key order hop := by
    rcases List.mem_cons.mp he with rfl | he
    · obtain rfl : o = .orders (.create key order) := hop
      have hl : Later s.data ((Op.orders (.create key order)).exec s.data).2 := Backed.later hb
      exact hb.2.later hl
    · exact (h.orders e he key order hop).later hb.later

variable (ext st) in
def spec : Spec (app ext st) where
  locks := discipline ext st
  inv := OnTime
  evolves := Later
  evolves_refl := Later.refl
  evolves_trans := Later.trans
  allow i o s := Timely i.request o s.data = true
  drop_inv _ _ _ h _ _ := ⟨h.effects, h.orders⟩

/-- An operation that what the task knows backs, under the locks it needs. -/
def May (q : Request) (K : State → Prop) (H : Set Lock) (o : Op) : Prop :=
  (∀ l, o.need l → l ∈ H) ∧
    ∀ s, OnTime s → K s → Timely q o s.data = true → Backed q o s

theorem lockFree : (spec ext st).LockFree := fun _ _ h => ⟨h.effects, h.orders⟩

theorem harmless {K : State → Prop} (hK : (spec ext st).Lasting K) :
    (spec ext st).Harmless i K (May i.request K) := by
  refine .of_lasting lockFree hK (fun _ _ => trivial) (fun H o s hm hi hk ha => ?_)
  have hb := hm.2 s hi hk ha
  exact ⟨hm.1, hi.perform hb, hb.later⟩

section Handlers

variable {agent : Option String} {id : String} {now issuedAt : Int64} {session : CheckoutSession}

theorem may_free {K : State → Prop} {H : Set Lock} (hn : ∀ l, o.need l → l ∈ H)
    (hb : ∀ s, Backed q o s) : May q K H o :=
  ⟨hn, fun s _ _ _ => hb s⟩

def anyState : State → Prop := fun _ => True

theorem lasting_any : (spec ext st).Lasting anyState := fun _ _ _ _ _ => trivial

def knowsSession (id : String) (session : CheckoutSession) : State → Prop :=
  fun s => ∃ y, s.data.sessions.get id = some y ∧ y.expiresAt = session.expiresAt

theorem lasting_knowsSession (id : String) (session : CheckoutSession) :
    (spec ext st).Lasting (knowsSession id session) := by
  rintro s s' hl - ⟨y, hy, hxy⟩
  obtain ⟨z, hz, hyz⟩ := hl id y hy
  exact ⟨z, hz, hyz.trans hxy⟩

def knowsOpen (id : String) (session : CheckoutSession) (now : Int64) : State → Prop :=
  fun s => knowsSession id session s ∧ now ≤ session.expiresAt

theorem lasting_knowsOpen (id : String) (session : CheckoutSession) (now : Int64) :
    (spec ext st).Lasting (knowsOpen id session now) :=
  fun s s' hl hs h => ⟨lasting_knowsSession id session s s' hl hs h.1, h.2⟩

theorem knowsOpen.inTime (h : knowsOpen id session now s)
    (hq : q.call = .completeCheckout id now issuedAt) : InTime s.data q := by
  obtain ⟨⟨y, hy, hxy⟩, hle⟩ := h
  exact ⟨id, now, issuedAt, y, hq, hy, by rw [hxy]; exact hle⟩

theorem knowsOpen.placedInTime (h : knowsOpen id session now s) :
    PlacedInTime s.data (Order.new (orderKey id) id session.totals now) := by
  obtain ⟨⟨y, hy, hxy⟩, hle⟩ := h
  exact ⟨y, now, hy, rfl, by rw [hxy]; exact hle⟩

theorem storeOrder_may (hq : q.call = .completeCheckout id now issuedAt) :
    Fallible.Respects (May q (knowsOpen id session now)) {.sessions, .orders}
      (storeOrder id session now) := by
  refine storeOrder_respects ⟨by simp [Op.need], fun s _ hk _ => ?_⟩
    ⟨by simp [Op.need], fun s _ hk _ => ?_⟩ (may_free (by simp [Op.need]) (fun _ => trivial))
  · exact ⟨hk.inTime hq, hk.placedInTime⟩
  · obtain ⟨⟨y, hy, hxy⟩, -⟩ := hk
    exact ⟨y, hy, hxy.symm⟩

theorem issueReceipt_may {a : String} {order : Order} {amount : Amount}
    (hq : q.call = .completeCheckout id now issuedAt) :
    Fallible.Respects (May q (knowsOpen id session now)) {.sessions, .orders}
      (issueReceipt a order amount issuedAt) := by
  refine .bind (locked_perform_respects (by simp) ⟨by simp [Op.need], ?_⟩) (fun _ => .pure _)
  exact fun s _ hk _ => hk.inTime hq

theorem le_of_commits {d : Data} {y : CheckoutSession} (ht : Timely q o d = true)
    (hq : q.call = .completeCheckout id now issuedAt) (hy : d.sessions.get id = some y)
    (hc : commits q.agent o y d.agents = true) : now ≤ y.expiresAt := by
  simpa only [Timely, hq, hy, Option.all_some, hc, Bool.not_true, Bool.false_or,
    decide_eq_true_eq] using ht

theorem placeOrder_none_ensures (hq : i.request = ⟨none, .completeCheckout id now issuedAt⟩)
    (hs : s.data.sessions.get id = some session) (ht : Timely i.request (.sessions (.get id)) s.data = true)
    (hopen : ¬ (session.status ≠ .paid ∧ session.status.isTerminal = true))
    (hH : ∀ l ∈ ({.sessions, .orders} : Set Lock), s.held l = some i) :
    (spec ext st).Ensures i
      (fun _ u => True ∧ ∀ l ∈ ({.sessions, .orders} : Set Lock), u.held l = some i)
      (placeOrder none id session now issuedAt) (s.perform Op.exec i (.sessions (.get id))) := by
  have hcall : i.request.call = .completeCheckout id now issuedAt := by rw [hq]
  have hcommits : commits i.request.agent (.sessions (.get id)) session s.data.agents = true := by
    rw [hq, commits, Bool.not_eq_true', ← Bool.not_eq_true, closed_iff]
    exact hopen
  have hle : now ≤ session.expiresAt := le_of_commits ht hcall hs hcommits
  have hknow : knowsOpen id session now (s.perform Op.exec i (.sessions (.get id))) :=
    ⟨⟨session, hs, rfl⟩, hle⟩
  rw [placeOrder_none]
  exact (Ensures.of_respects (harmless (lasting_knowsOpen id session now))
    (storeOrder_may hcall) hknow hH).mono (fun _ _ h => ⟨trivial, h.2⟩)

theorem placeOrder_some_ensures {a : String}
    (hq : i.request = ⟨some a, .completeCheckout id now issuedAt⟩)
    (hs : knowsSession id session s)
    (hH : ∀ l ∈ ({.sessions, .orders} : Set Lock), s.held l = some i) :
    (spec ext st).Ensures i
      (fun _ u => True ∧ ∀ l ∈ ({.sessions, .orders} : Set Lock), u.held l = some i)
      (placeOrder (some a) id session now issuedAt) s := by
  have hcall : i.request.call = .completeCheckout id now issuedAt := by rw [hq]
  have timely {u : State} (hu : knowsSession id session u)
      (ht : Timely i.request (.chargeAgent a session.totals.total) u.data = true)
      (hok : (u.data.agents.chargeAgent a session.totals.total).1 = .ok ()) :
      now ≤ session.expiresAt := by
    obtain ⟨y, hy, hexp⟩ := hu
    refine hexp ▸ le_of_commits ht hcall hy ?_
    rw [hq, commits, Bool.not_eq_true', ← Bool.not_eq_true, refuses_iff]
    rintro ⟨message, hch⟩
    rw [hch] at hok
    cases hok
  rw [placeOrder_some, chargeAgent, bind_assoc]
  refine Ensures.locked_perform_bind (harmless (lasting_knowsSession id session))
    ⟨by simp [Op.need], fun u _ hk ht hok => ?_⟩ (by simp) hs hH
    (fun s1 u _ ht hl _ _ _ hk hHu => ?_)
  · obtain ⟨y, hy, hexp⟩ := hk
    exact ⟨id, now, issuedAt, y, hcall, hy, by rw [hexp]; exact timely ⟨y, hy, hexp⟩ ht hok⟩
  · rw [Spec.ensures_mapErr_bind (P := spec ext st)]
    cases hresp : ((app ext st).exec (Op.chargeAgent a session.totals.total) s1.data).1 with
    | error message => exact ⟨trivial, hHu⟩
    | ok _ =>
        have hs1 : knowsSession id session s1 := by
          obtain ⟨y, hy, hexp⟩ := hs
          obtain ⟨z, hz, hyz⟩ := hl id y hy
          exact ⟨z, hz, hyz.trans hexp⟩
        have hknow : knowsOpen id session now u := ⟨hk, timely hs1 ht hresp⟩
        refine (Ensures.of_respects (harmless (lasting_knowsOpen id session now))
          (.bind (storeOrder_may hcall) (fun _ => .bind (issueReceipt_may hcall) (fun _ => .pure _)))
          hknow hHu).mono (fun _ _ h => ⟨trivial, h.2⟩)

theorem completeCheckout_ensures (hq : i.request = ⟨agent, .completeCheckout id now issuedAt⟩) :
    (spec ext st).Ensures i (fun _ _ => True) (completeCheckout agent id now issuedAt) s := by
  refine Server.completeCheckout_ensures (harmless lasting_any)
    (may_free (by simp [Op.need]) (fun _ => trivial)) (may_free (by simp [Op.need]) (fun _ => trivial))
    (fun s' session _ _ hH hs ht hopen => ?_) trivial
  cases agent with
  | none => exact placeOrder_none_ensures hq hs ht hopen hH
  | some a => exact placeOrder_some_ensures hq ⟨session, hs, rfl⟩ hH

theorem cancelCheckout_ensures :
    (spec ext st).Ensures i (fun _ _ => True) (cancelCheckout id) s := by
  refine Server.cancelCheckout_ensures (harmless lasting_any)
    (may_free (by simp [Op.need]) (fun _ => trivial)) (fun s' session m _ _ hH hs hm => ?_) trivial
  have hknow : knowsSession id session (s'.perform Op.exec i (Op.sessions (.get id))) :=
    ⟨session, hs, rfl⟩
  refine (Ensures.of_respects (harmless (lasting_knowsSession id session)) (hm.mono ?_) hknow hH).mono
    (fun _ _ h => ⟨trivial, h.2⟩)
  rintro H o ⟨rfl, rfl⟩
  refine ⟨by simp [Op.need], ?_⟩
  rintro s - ⟨y, hy, hxy⟩ -
  exact ⟨y, hy, hxy.symm⟩

theorem handler_holds :
    (spec ext st).Holds i ((spec ext st).post i) (handler ext st i.request) s := by
  obtain ⟨n, agent, call⟩ := i
  have rest (hp : ∀ o, Request.performs ⟨agent, call⟩ o → ∀ s, Backed ⟨agent, call⟩ o s) :
      (spec ext st).Holds ⟨n, agent, call⟩ (fun _ _ => True) (handler ext st ⟨agent, call⟩) s :=
    (Spec.Holds.of_respects (harmless lasting_any) ((handler_respects ext st ⟨agent, call⟩).mono
      (fun H o ho => may_free ho.2 (hp o ho.1))) trivial (by simp)).mono (fun _ _ _ => trivial)
  cases call with
  | completeCheckout id now issuedAt => exact holds_replyTo.mpr (completeCheckout_ensures rfl)
  | cancelCheckout id => exact holds_replyTo.mpr cancelCheckout_ensures
  | _ =>
      refine rest (fun o ho s => ?_)
      cases o with
      | sessions o | orders o => cases o <;> first | trivial | simp [Request.performs] at ho
      | _ => first | trivial | simp [Request.performs] at ho

end Handlers

def StepTimely (c : Configuration) (a : Action Request) : Bool :=
  match a with
  | .step n =>
      match c.procs[n]? with
      | some ⟨q, some (.op o _)⟩ => Timely q o c.shared.data
      | _ => true
  | _ => true

theorem admits : (spec ext st).Admits (fun c a => StepTimely c a = true) where
  spawn _ _ _ _ _ := handler_holds
  step c n q o k ha hn _ := by
    change Timely q o c.shared.data = true
    simpa only [StepTimely, hn] using ha
  drop _ _ _ _ _ _ _ _ := trivial
  stable _ _ _ _ _ h := h

theorem onTime_start (crypto : Crypto) : OnTime (.start (Data.new crypto)) where
  effects _ he := by cases he
  orders _ he := by cases he

/-- Alone, a completion past its time does nothing exactly when its session is
closed or its charge refused; and along runs where that stops every completion
past its time, orders, charges and receipts are all made in time. -/
theorem expiry_of_timely (ext : Platform) (st : AppState) :
    (∀ d agent id x now issuedAt, d.orders.get (orderKey id) = none →
      d.sessions.get id = some x → x.expiresAt < now →
      (Untouched d ((completeCheckout agent id now issuedAt).run Op.exec d).2 ↔
        closed x = true ∨ ∃ a, agent = some a ∧ refuses d.agents a x.totals.total = true)) ∧
    ∀ c, (app ext st).Runs (fun c a => StepTimely c a = true) (.start (Data.new ext.crypto)) c →
      OnTime c.shared := by
  refine ⟨fun d agent id x now issuedAt ho hx _ => untouched_iff ho hx, fun c h => ?_⟩
  exact (Spec.Sound.runs (@admits ext st) (Spec.sound_start (onTime_start ext.crypto)) h).inv

def purchase (now : Int64) : List (Action Request) :=
  System.enter 0 ⟨some demoAgentId, .createCart ⟨none, [⟨"p-1", 1⟩]⟩⟩ 4 ++
  System.enter 1 ⟨some demoAgentId, .createCheckoutSession ⟨"cart-0", none⟩ 0⟩ 10 ++
  System.enter 2 ⟨some demoAgentId, .completeCheckout "cs-1" now now⟩ 15

theorem expiry_of_timely_early : ∃ c : Configuration,
    (c.shared.data.orders.get "ord-cs-1").map Order.timeline = some [⟨.placed, 1800⟩] ∧
      OnTime c.shared := by
  have hplay : (((app .bare AppState.shop).play (fun c a => StepTimely c a = true)
      (.start (Data.new Platform.bare.crypto)) (purchase 1800)).map (fun c =>
        (c.shared.data.orders.get "ord-cs-1").map Order.timeline)) =
      some (some [⟨.placed, 1800⟩]) := by
    decide +kernel
  obtain ⟨c, hc, ho⟩ := Option.map_eq_some_iff.mp hplay
  exact ⟨c, ho, (expiry_of_timely .bare AppState.shop).2 c (System.play_runs hc)⟩

/-- The order of an expired session is placed, charged and receipted as any other. -/
theorem expired_session_completes : ¬ ∀ (ext : Platform) (st : AppState) (c : Configuration),
    (app ext st).Runs (fun _ _ => True) (.start (Data.new ext.crypto)) c → OnTime c.shared := by
  intro h
  have hplay : (((app .bare AppState.shop).play (fun _ _ => True)
      (.start (Data.new Platform.bare.crypto)) (purchase 7200)).map (fun c =>
        ((c.shared.data.sessions.get "cs-1").map CheckoutSession.expiresAt,
          c.shared.history.any (fun e => Effect e &&
            decide (e.actor.request.call = .completeCheckout "cs-1" 7200 7200))))) =
      some (some 3600, true) := by
    decide +kernel
  obtain ⟨c, hc, heq⟩ := Option.map_eq_some_iff.mp hplay
  obtain ⟨hexp, hany⟩ := Prod.mk.inj heq
  obtain ⟨e, he, hcall⟩ := List.any_eq_true.mp hany
  obtain ⟨heff, hcall⟩ := Bool.and_eq_true_iff.mp hcall
  obtain ⟨id, now, issuedAt, x, hq, hx, hle⟩ :=
    (h .bare AppState.shop c (System.play_runs hc)).effects e he heff
  rw [of_decide_eq_true hcall] at hq
  obtain ⟨rfl, rfl, -⟩ := Call.completeCheckout.inj hq
  rw [hx] at hexp
  rw [Option.some.inj hexp] at hle
  exact absurd hle (by decide)

end AiterCommerce.Guarantees.Expiry
