import AiterCommerce.Guarantees.Completion

namespace AiterCommerce.Guarantees.ExactlyOnce

open AiterCommerce.Core Concurrent Server Books

def NoDrop : Action Request → Bool
  | .drop _ => false
  | _ => true

def Ever (status : CheckoutStatus) (k : String) (s : State) : Prop :=
  (∃ x, s.data.sessions.get k = some x ∧ x.status = status) ∨
    ∃ e ∈ s.history, ∃ x, e.before.sessions.get k = some x ∧ x.status = status

/-- How a session stands between completions. -/
structure CompletedOnce (s : State) (k : String) : Prop where
  order_iff : (s.data.orders.get (orderKey k)).isSome ↔
    ∃ x, s.data.sessions.get k = some x ∧ x.status = .paid
  order_id : ∀ o, s.data.orders.get (orderKey k) = some o →
    o.id = orderKey k ∧ o.checkoutSessionId = k
  cancelled : Ever .cancelled k s → s.data.orders.get (orderKey k) = none
  created : (s.data.orders.get (orderKey k)).isSome ↔ ∃ agent, (view s).created k = [agent]
  signed : ∀ a, (view s).created k = [some a] → ∃ amount t, (view s).charged k = [(a, amount)] ∧
    receipts k s.data.audit = [⟨receiptId (orderKey k), a, orderKey k, amount, t⟩]
  unsigned : (∀ a, (view s).created k ≠ [some a]) → receipts k s.data.audit = []

structure Once (s : State) : Prop where
  session : ∀ k, CompletedOnce s k
  sequenced : s.data.audit.entries.map AuditEntry.seq = List.range s.data.audit.len
  counted : s.data.checkoutsCompleted = s.data.orders.len

variable {ext : Platform} {st : AppState} {c : Configuration}

theorem ever_terminal {P : Spec (app ext st)} (hP : ∀ a b, P.evolves a b → Completion.Later a b)
    (hc : P.Sound c) {status : CheckoutStatus} (ht : status.isTerminal = true) {k : String}
    (h : Ever status k c.shared) : ∃ x, c.shared.data.sessions.get k = some x ∧ x.status = status := by
  rcases h with h | ⟨e, he, x, hx, hs⟩
  · exact h
  · obtain ⟨y, hy, hyx⟩ := (hP _ _ (hc.past e he)).terminal k x hx (hs ▸ ht)
    exact ⟨y, hy, hyx.trans hs⟩

theorem completedOnce_of_settled {k : String} (hc : (Completion.spec ext st).Sound c)
    (h : (view c.shared).Settled k) : CompletedOnce c.shared k where
  order_iff := h.order_iff
  order_id o ho := h.order_id ho
  cancelled he := by
    obtain ⟨x, hx, hs⟩ := ever_terminal (fun _ _ h => h) hc rfl he
    by_contra hne
    obtain ⟨y, hy, hp⟩ := h.order_iff.mp (Option.isSome_iff_ne_none.mpr hne)
    obtain rfl := Option.some.inj (hx.symm.trans hy)
    cases hs.symm.trans hp
  created := by
    rcases h with h | ⟨agent, amount, hp, -⟩
    · exact iff_of_false (by simp [show c.shared.data.orders.get (orderKey k) = none from h.order])
        (by simp [h.created])
    · obtain ⟨o, ho, -⟩ := hp.order
      exact iff_of_true (by simp [show c.shared.data.orders.get (orderKey k) = some o from ho])
        ⟨agent, hp.created⟩
  signed a ha := by
    rcases h with h | ⟨agent, amount, hp, t, hr⟩
    · cases h.created.symm.trans ha
    · obtain rfl : agent = some a := by simpa using hp.created.symm.trans ha
      exact ⟨amount, t, hp.charged, hr⟩
  unsigned hn := by
    rcases h with h | ⟨agent, amount, hp, t, hr⟩
    · exact h.receipts
    · cases agent with
      | none => exact hr
      | some a => exact absurd hp.created (hn a)

/-- Whatever the order of the steps: while no completion is under way each
session stands as completed once or not at all; paid sessions stay paid, the log
only grows; and every completion that succeeds answers the order of its session. -/
theorem completed_exactly_once (ext : Platform) (st : AppState) {c : Configuration}
    (h : (app ext st).Runs (fun _ a => NoDrop a = true) (.start (Data.new ext.crypto)) c) :
    (c.shared.held .orders = none → c.shared.held .sessions = none → Once c.shared) ∧
    (∀ c', (app ext st).Runs (fun _ a => NoDrop a = true) c c' →
      (∀ k x, c.shared.data.sessions.get k = some x → x.status = .paid →
        ∃ y, c'.shared.data.sessions.get k = some y ∧ y.status = .paid) ∧
      c.shared.data.audit.entries <+: c'.shared.data.audit.entries) ∧
    ∀ n q k o, c.returned n = some (q, .order (.ok o)) → completes q = some k →
      o.id = orderKey k ∧ (c.shared.data.orders.get (orderKey k)).isSome := by
  have hA (c : Configuration) (a : Action Request) (ha : NoDrop a = true) :
      Completion.ReceiptKept c a = true := by
    cases a with
    | drop n => cases ha
    | _ => rfl
  have hc := Completion.sound hA h
  refine ⟨fun ho _ => ?_, fun c' h' => ?_, fun n q k o hr hk => ?_⟩
  · have hq := hc.inv (fun i hi => by cases ho.symm.trans hi.orders)
    refine ⟨fun k => completedOnce_of_settled hc (hq.settled k), ?_, hq.counted⟩
    rw [← AppendOnlyLog.nextSeq_eq_len, c.shared.data.audit.sequenced]
  · have hl : Completion.Later c.shared.data c'.shared.data :=
      hc.evolves_runs Completion.admits (h'.mono hA)
    refine ⟨fun k x hx hs => ?_, hl.entries⟩
    obtain ⟨y, hy, hyx⟩ := hl.terminal k x hx (by rw [hs]; rfl)
    exact ⟨y, hy, hyx.trans hs⟩
  · exact (hc.returned hr k (.ok o) hk rfl).order o rfl

def checkingOut : List (Action Request) :=
  System.enter 0 ⟨some demoAgentId, .createCart ⟨none, [⟨"p-1", 2⟩]⟩⟩ 4 ++
  System.enter 1 ⟨some demoAgentId, .createCheckoutSession ⟨"cart-0", none⟩ 0⟩ 10

/-- Two completions of the session, the second while the first is under way. -/
def racing : List (Action Request) :=
  System.enter 2 ⟨some demoAgentId, .completeCheckout "cs-1" 0 0⟩ 9 ++
  System.enter 3 ⟨none, .completeCheckout "cs-1" 1 1⟩ 0 ++
  List.replicate 6 (.step 2) ++ List.replicate 5 (.step 3)

theorem completed_exactly_once_racing : ∃ c : Configuration,
    c.shared.data.checkoutsCompleted = 1 ∧ (receipts "cs-1" c.shared.data.audit).length = 1 ∧
      Once c.shared := by
  have hplay : (((app .bare .shop).play (fun _ a => NoDrop a = true)
      (.start (Data.new Platform.bare.crypto)) (checkingOut ++ racing)).map (fun c =>
        ((c.shared.held .orders, c.shared.held .sessions), c.shared.data.checkoutsCompleted,
          (receipts "cs-1" c.shared.data.audit).length))) = some ((none, none), 1, 1) := by
    decide +kernel
  obtain ⟨c, hc, heq⟩ := Option.map_eq_some_iff.mp hplay
  simp only [Prod.mk.injEq] at heq
  obtain ⟨⟨ho, hs⟩, hcount, hrec⟩ := heq
  exact ⟨c, hcount, hrec, (completed_exactly_once .bare .shop (System.play_runs hc)).1 ho hs⟩

end AiterCommerce.Guarantees.ExactlyOnce
