import AiterCommerce.Guarantees.Shown
import AiterCommerce.Guarantees.Stages
import AiterCommerce.Server.Http

namespace AiterCommerce.Guarantees.Lifecycle

open AiterCommerce.Core Concurrent Server Books Stages
open Money (PaidBy)
open Spec (Ensures Harmless)

variable {ext : Platform} {st : AppState} {orders : Orders} {sessions : Sessions} {k : String}

def Writes : Op → Prop
  | .sessions (.create _ _) | .sessions (.update _ _) | .orders (.create _ _)
  | .orders (.update _ _) => True
  | _ => False

theorem stores_of_not_writes {o : Op} (h : ¬ Writes o) (d : Data) :
    (o.exec d).2.orders = d.orders ∧ (o.exec d).2.sessions = d.sessions := by
  cases o with
  | sessions o | orders o => cases o <;> first | exact ⟨rfl, rfl⟩ | exact absurd trivial h
  | _ => exact ⟨rfl, rfl⟩

theorem isSome_update (key : String) (o : Order) (orders : Orders) (key' : String) :
    (((StoreOp.update key o).exec orders).2.get key').isSome = (orders.get key').isSome := by
  cases h : orders.get key' with
  | none =>
      cases h' : ((StoreOp.update key o).exec orders).2.get key' with
      | none => rfl
      | some x =>
          rcases StoreOp.get_exec h' with hx | ⟨hx, -⟩ | ⟨-, hx⟩
          · rw [h] at hx
            cases hx
          · cases hx
          · rw [h] at hx
            cases hx
  | some x =>
      rcases StoreOp.get_exec_of_some (.update key o) h with hx | ⟨y, -, hx⟩ <;> simp [hx]

/-- An order is stored by a holder of the sessions too. -/
def locks (ext : Platform) (st : AppState) : Discipline (app ext st) where
  need o l := o.need l ∨ l = .sessions ∧ ∃ key x, o = .orders (.create key x)
  same l a b := l.same a b ∧
    (l = .sessions → ∀ key, (b.orders.get key).isSome = (a.orders.get key).isSome)
  same_refl l d := ⟨l.same_refl d, fun _ _ => rfl⟩
  same_trans l _ _ _ h h' := ⟨l.same_trans h.1 h'.1, fun hl key => (h'.2 hl key).trans (h.2 hl key)⟩
  frame o l d hn := by
    refine ⟨o.frame l d (fun h => hn (.inl h)), fun hl key => ?_⟩
    cases o with
    | orders o =>
        cases o with
        | get k => rfl
        | create k x => exact absurd (.inr ⟨hl, k, x, rfl⟩) hn
        | update k x => exact isSome_update k x d.orders key
    | _ => rfl

/-- Every operation so far was a step of the stages, and whoever lets go of the sessions leaves
them settled. -/
structure Inv (ext : Platform) (st : AppState) (s : State) : Prop where
  consistent : Consistent s.data.orders s.data.sessions
  steps : ∀ e ∈ s.history,
    Step ext st e.actor.request (stageOf e.before) (stageOf (e.op.exec e.before).2)
  settled : s.held .sessions = none → Settled s.data.orders s.data.sessions

def Guard (i : Name Request) (s : State) : Prop :=
  s.held .sessions = some i → Settled s.data.orders s.data.sessions

/-- What a handler answers: a completion fails for its checks and its charge alone, a
cancellation for a paid session, a delivery for what it says. -/
def Expected (call : Call) : Reply → Prop
  | .order (.error e) => e = .notFound ∨ e = .conflict "session is not completable" ∨
      ∃ message, e = .spendLimit message
  | .session (.error e) => ∀ id, call = .cancelCheckout id →
      e = .notFound ∨ e = .checkout (.illegalTransition .paid .markCancelled)
  | .webhook (.error e) => e.status ≠ 500 ∧
      (e.status = 409 → ∃ expected got, e = webhookErrorResponse (.amountMismatch expected got))
  | _ => True

variable (ext st) in
def spec : Spec (app ext st) where
  locks := locks ext st
  inv := Inv ext st
  waiting i _ s := Guard i s
  drop_inv i l s hi hw _ := by
    refine ⟨hi.consistent, hi.steps, fun hnone => ?_⟩
    cases hs : s.held .sessions with
    | none => exact hi.settled hs
    | some j =>
        by_cases hj : j = i
        · exact hw (hj ▸ hs)
        · simp [Shared.abandon, hs, hj] at hnone
  post i r _ := Expected i.request.call r

variable {i : Name Request} {s s' : State} {o : Op}

theorem Inv.perform (h : Inv ext st s)
    (hc : Consistent (o.exec s.data).2.orders (o.exec s.data).2.sessions)
    (hstep : Step ext st i.request (stageOf s.data) (stageOf (o.exec s.data).2))
    (hs : s.held .sessions = none → Settled (o.exec s.data).2.orders (o.exec s.data).2.sessions) :
    Inv ext st (s.perform Op.exec i o) where
  consistent := hc
  steps e he := by
    rcases List.mem_cons.mp he with rfl | he
    · exact hstep
    · exact h.steps e he
  settled := hs

theorem Inv.perform_of_not_writes (h : Inv ext st s) (ho : ¬ Writes o) :
    Inv ext st (s.perform Op.exec i o) := by
  obtain ⟨horders, hsessions⟩ := stores_of_not_writes ho s.data
  refine h.perform ?_ (.inl ?_) ?_
  · rw [horders, hsessions]
    exact h.consistent
  · funext k
    rw [stageOf, horders, hsessions, stageOf]
  · rw [horders, hsessions]
    exact h.settled

theorem Guard.rely (h : Guard i s) (hr : (spec ext st).Rely i s s') : Guard i s' := by
  intro hl
  have hl' : s.held .sessions = some i := (hr.held _).mp hl
  obtain ⟨hs, ho⟩ := hr.same .sessions hl'
  have hs' : s'.data.sessions = s.data.sessions := hs
  intro k hk
  rw [ho rfl] at hk
  rw [hs']
  exact h hl' k hk

theorem Guard.acquire {l : Lock} (hi : Inv ext st s) (h : Guard i s) (hf : s.held l = none) :
    Inv ext st (s.acquire i l) ∧ Guard i (s.acquire i l) := by
  by_cases hl : l = .sessions
  · subst hl
    refine ⟨⟨hi.consistent, hi.steps, fun hn => ?_⟩, fun _ => hi.settled hf⟩
    rw [s.acquire_held_self] at hn
    cases hn
  · have hne : s.held .sessions = (s.acquire i l).held .sessions :=
      (s.acquire_held_ne i (fun he => hl he.symm)).symm
    exact ⟨⟨hi.consistent, hi.steps, fun hn => hi.settled (hne.trans hn)⟩,
      fun hn => h (hne.trans hn)⟩

theorem Guard.release {l : Lock} (hi : Inv ext st s) (h : Guard i s) (hl : s.held l = some i) :
    Inv ext st (s.release l) ∧ Guard i (s.release l) := by
  by_cases hs : l = .sessions
  · subst hs
    refine ⟨⟨hi.consistent, hi.steps, fun _ => h hl⟩, fun hn => ?_⟩
    rw [s.release_held_self] at hn
    cases hn
  · have hne : s.held .sessions = (s.release l).held .sessions :=
      (s.release_held_ne (fun he => hs he.symm)).symm
    exact ⟨⟨hi.consistent, hi.steps, fun hn => hi.settled (hne.trans hn)⟩,
      fun hn => h (hne.trans hn)⟩

theorem createSession_keeps (h : Inv ext st s) {body : CreateSessionRequest} {now : Int64}
    (hq : i.request.call = .createCheckoutSession body now) (x : CheckoutSession)
    (hx : x.status = .pending) :
    Inv ext st (s.perform Op.exec i (.sessions (.create k x))) ∧
      (Settled s.data.orders s.data.sessions → Settled s.data.orders
        ((StoreOp.create k x).exec s.data.sessions).2) := by
  cases hs : s.data.sessions.get k with
  | some y =>
      have hexec : ((StoreOp.create k x).exec s.data.sessions).2 = s.data.sessions := by
        rw [StoreOp.exec, InMemoryStore.create_of_some hs]
        rfl
      have hdata : ((Op.sessions (.create k x)).exec s.data).2 = s.data := by
        change { s.data with sessions := ((StoreOp.create k x).exec s.data.sessions).2 } = s.data
        rw [hexec]
      rw [hexec]
      refine ⟨h.perform ?_ ?_ ?_, id⟩
      · rw [hdata]
        exact h.consistent
      · rw [hdata]
        exact .inl rfl
      · rw [hdata]
        exact h.settled
  | none =>
      have hexec : ((StoreOp.create k x).exec s.data.sessions).2 = s.data.sessions.insert k x := by
        rw [StoreOp.exec, InMemoryStore.create_of_none hs]
        rfl
      have ho := h.consistent.order_of_session_none hs
      rw [hexec]
      refine ⟨h.perform ?_ (.inr ⟨k, ?_, fun k' hk' => ?_⟩) ?_, fun hset => hset.createSession hs⟩
      · change Consistent s.data.orders ((StoreOp.create k x).exec s.data.sessions).2
        rw [hexec]
        exact h.consistent.createSession hs hx
      · have hbefore : stageOf s.data k = .absent := by
          rw [stageOf, stage, ho, hs]
        have hafter : stageOf ((Op.sessions (.create k x)).exec s.data).2 k = .pending := by
          change stage s.data.orders ((StoreOp.create k x).exec s.data.sessions).2 k = .pending
          rw [hexec, stage_of_session ho (InMemoryStore.get_insert_self _ _ _), Stage.ofSession, hx]
          rfl
        rw [hbefore, hafter]
        exact .created body now hq
      · change stage s.data.orders ((StoreOp.create k x).exec s.data.sessions).2 k' = _
        rw [hexec]
        exact stage_insert_session x hk'
      · intro hnone
        change Settled s.data.orders ((StoreOp.create k x).exec s.data.sessions).2
        rw [hexec]
        exact (h.settled hnone).createSession hs

section Others

def May (q : Request) (H : Set Lock) (o : Op) : Prop :=
  (∀ l, o.need l → l ∈ H) ∧ (¬ Writes o ∨ ∃ body now id x,
    q.call = .createCheckoutSession body now ∧ o = .sessions (.create id x) ∧ x.status = .pending)

theorem harmless : (spec ext st).Harmless i (Guard i) (May i.request) where
  stable s s' hr h := h.rely hr
  perform H o s hm hH hi hg _ := by
    obtain ⟨hn, hw⟩ := hm
    rcases hw with hw | ⟨body, now, id, x, hq, rfl, hx⟩
    · refine ⟨fun l hl => ?_, ⟨hi.perform_of_not_writes hw, trivial⟩, fun hl => ?_⟩
      · rcases hl with hl | ⟨-, key, y, rfl⟩
        · exact hH l (hn l hl)
        · exact absurd trivial hw
      · obtain ⟨horders, hsessions⟩ := stores_of_not_writes hw s.data
        have h := hg hl
        change Settled (o.exec s.data).2.orders (o.exec s.data).2.sessions
        rwa [horders, hsessions]
    · obtain ⟨hinv, hset⟩ := createSession_keeps hi hq (k := id) x hx
      refine ⟨fun l hl => ?_, ⟨hinv, trivial⟩, fun hl => hset (hg hl)⟩
      rcases hl with hl | ⟨-, key, y, he⟩
      · exact hH l (hn l hl)
      · cases he
  waiting l s _ h := h
  acquire l s hi h hf := h.acquire hi hf
  release l s hi h hl := h.release hi hl

theorem may_read {q : Request} {H : Set Lock} (hn : ∀ l, o.need l → l ∈ H) (hw : ¬ Writes o) :
    May q H o := ⟨hn, .inl hw⟩

theorem updateSession_exec {x : CheckoutSession} (hs : s.data.sessions.get k = some x)
    (y : CheckoutSession) : (Op.sessions (.update k y)).exec s.data =
      (.ok (), { s.data with sessions := s.data.sessions.insert k y }) := by
  have hu : (StoreOp.update k y).exec s.data.sessions = (.ok (), s.data.sessions.insert k y) := by
    rw [StoreOp.exec, InMemoryStore.update_of_some hs]
    rfl
  rw [Op.exec, hu]

theorem updateOrder_exec {d : Data} {key : String} {x : Order} (ho : d.orders.get key = some x)
    (y : Order) : (Op.orders (.update key y)).exec d =
      (.ok (), { d with orders := d.orders.insert key y }) := by
  have hu : (StoreOp.update key y).exec d.orders = (.ok (), d.orders.insert key y) := by
    rw [StoreOp.exec, InMemoryStore.update_of_some ho]
    rfl
  rw [Op.exec, hu]

theorem cancelSession_keeps {session : CheckoutSession} (h : Inv ext st s) (hg : Guard i s)
    (hq : i.request.call = .cancelCheckout k) (hl : s.held .sessions = some i)
    (hs : s.data.sessions.get k = some session) (hp : session.status = .pending) :
    Inv ext st (s.perform Op.exec i (.sessions (.update k { session with status := .cancelled }))) ∧
      Guard i (s.perform Op.exec i
        (.sessions (.update k { session with status := .cancelled }))) := by
  have hnone : s.data.orders.get (orderKey k) = none := by
    cases ho : s.data.orders.get (orderKey k) with
    | none => rfl
    | some o =>
        obtain ⟨x, hx, hpaid⟩ := hg hl k (by rw [ho]; rfl)
        obtain rfl := Option.some.inj (hs.symm.trans hx)
        rw [hp] at hpaid
        cases hpaid
  have hexec := congrArg Prod.snd
    (updateSession_exec hs { session with status := .cancelled })
  dsimp only at hexec
  constructor
  · refine h.perform ?_ (.inr ⟨k, ?_, fun k' hk' => ?_⟩) (fun hn => ?_)
    · rw [hexec]
      exact h.consistent.updateSession hs (.inl ⟨rfl, hnone⟩)
    · rw [hexec]
      have hbefore : stageOf s.data k = .pending := by
        rw [stageOf, stage_of_session hnone hs, Stage.ofSession, hp]
        rfl
      have hafter : stage s.data.orders
          (s.data.sessions.insert k { session with status := .cancelled }) k = .cancelled := by
        rw [stage_of_session hnone (InMemoryStore.get_insert_self _ _ _)]
        rfl
      rw [hbefore, stageOf, hafter]
      exact .cancelled hq
    · rw [hexec]
      exact stage_insert_session _ hk'
    · rw [hl] at hn
      cases hn
  · intro _
    change Settled ((Op.sessions (.update k { session with status := .cancelled })).exec s.data).2.orders
      ((Op.sessions (.update k { session with status := .cancelled })).exec s.data).2.sessions
    rw [hexec]
    exact (hg hl).cancelSession hnone

theorem Guard.answer {l : Lock} {p : Prop} (h : Guard i s) (hl : s.held l = some i) (hp : p) :
    ∀ u, (spec ext st).Rely i s u → (spec ext st).inv u →
      u.held l = some i ∧ (spec ext st).inv (u.release l) ∧ p ∧ Guard i (u.release l) := by
  intro u hr hi
  have hlu : u.held l = some i := (hr.held l).mpr hl
  obtain ⟨hi', hg⟩ := (h.rely hr).release hi hlu
  exact ⟨hlu, hi', hp, hg⟩

theorem cancelCheckout_ensures (h : Guard i s) (hq : i.request.call = .cancelCheckout k) :
    (spec ext st).Ensures i (fun r u => Expected i.request.call (.session r) ∧ Guard i u)
      (cancelCheckout k) s := by
  rw [hq, cancelCheckout, Spec.ensures_locked (P := spec ext st)]
  intro s1 hr1 hi1
  refine ⟨h.rely hr1, fun hf => ?_⟩
  obtain ⟨hi2, hg2⟩ := (h.rely hr1).acquire hi1 hf
  refine ⟨hi2, ?_⟩
  rw [Spec.ensures_perform_bind (P := spec ext st)]
  intro s3 hr3 hi3 _
  have hl3 : s3.held .sessions = some i := (hr3.held _).mpr (s1.acquire_held_self i _)
  have hmay : May i.request {.sessions} (Op.sessions (.get k)) :=
    may_read (by simp [Op.need]) (fun hw => hw)
  obtain ⟨hn, hgood, hg4⟩ := harmless.perform {.sessions} _ s3 hmay
    (fun l hl => Set.mem_singleton_iff.mp hl ▸ hl3) hi3 (hg2.rely hr3) trivial
  refine ⟨hn, hgood, ?_⟩
  have hget : ((app ext st).exec (Op.sessions (.get k)) s3.data).1 = s3.data.sessions.get k := rfl
  rw [hget, Spec.ensures_okOr_bind (P := spec ext st)]
  cases hs : s3.data.sessions.get k with
  | none => exact hg4.answer hl3 (fun _ _ => .inl rfl)
  | some session =>
      dsimp only
      split
      next hopen =>
        rw [Spec.ensures_mapErr_bind (P := spec ext st)]
        rcases hi3.consistent.session k session hs with hp | hc | ⟨hp, -⟩
        · have happly : session.applyEvent .markCancelled =
              .ok { session with status := .cancelled } := by
            rw [CheckoutSession.applyEvent, hp]
            rfl
          rw [happly]
          dsimp only
          rw [Spec.ensures_perform_bind (P := spec ext st)]
          intro s5 hr5 hi5 _
          have hl5 : s5.held .sessions = some i := (hr5.held _).mpr hl3
          have hs5 : s5.data.sessions.get k = some session := by
            rw [(hr5.same .sessions hl3).1]
            exact hs
          obtain ⟨hi6, hg6⟩ := cancelSession_keeps hi5 (hg4.rely hr5) hq hl5 hs5 hp
          refine ⟨fun l hl => ?_, ⟨hi6, trivial⟩, ?_⟩
          · rcases hl with hl | ⟨-, key, y, he⟩
            · obtain rfl : l = Lock.sessions := hl
              exact hl5
            · cases he
          · have hresp := congrArg Prod.fst
              (updateSession_exec hs5 { session with status := .cancelled })
            rw [show ((app ext st).exec (Op.sessions (.update k
              { session with status := .cancelled })) s5.data).1 = .ok () from hresp,
              Spec.ensures_mapErr_bind (P := spec ext st)]
            exact hg6.answer hl5 trivial
        · exact absurd hc hopen
        · have happly : session.applyEvent .markCancelled =
              .error (.illegalTransition .paid .markCancelled) := by
            rw [CheckoutSession.applyEvent, hp]
            rfl
          rw [happly]
          exact hg4.answer hl3 (fun _ _ => .inr rfl)
      · exact hg4.answer hl3 trivial

theorem payOrder_keeps {key : String} {order confirmed : Order} {entity : WebhookPaymentEntity}
    {now : Int64} (h : Inv ext st s) (hg : Guard i s)
    (hq : PaidBy ext st i.request key order.totals.total entity.id)
    (ho : s.data.orders.get key = some order) (hr : order.paymentReference = none)
    (ha : order.applyEvent .confirm now = .ok confirmed) :
    Inv ext st (s.perform Op.exec i
        (.orders (.update key { confirmed with paymentReference := some entity.id }))) ∧
      Guard i (s.perform Op.exec i
        (.orders (.update key { confirmed with paymentReference := some entity.id }))) := by
  have hexec := congrArg Prod.snd
    (updateOrder_exec ho { confirmed with paymentReference := some entity.id })
  dsimp only at hexec
  have hsome : (s.data.orders.get key).isSome := by rw [ho]; rfl
  obtain ⟨k, x, rfl, hshape, hx, hc, ht⟩ := h.consistent.order key order ho
  obtain ⟨confirmed', ha', hshape'⟩ := hshape.confirm hr now entity.id
  obtain rfl : confirmed = confirmed' := Except.ok.inj (ha.symm.trans ha')
  obtain ⟨-, -, htotals, -⟩ := Order.applyEvent_frame ha
  constructor
  · refine h.perform ?_ (.inr ⟨k, ?_, fun k' hk' => ?_⟩) (fun hn => ?_)
    · rw [hexec]
      exact h.consistent.insertOrder hx hc hshape' (htotals.trans ht)
    · rw [hexec]
      have hbefore : stageOf s.data k = .placed order.totals.total := by
        rw [stageOf, stage_of_order ho, Stage.ofOrder, hr]
      have hafter : stage (s.data.orders.insert (orderKey k)
          { confirmed with paymentReference := some entity.id }) s.data.sessions k =
          .paid order.totals.total entity.id := by
        rw [stage_of_order (InMemoryStore.get_insert_self _ _ _), Stage.ofOrder, ← htotals]
      rw [hbefore, stageOf, hafter]
      exact .paid _ _ hq
    · rw [hexec]
      exact stage_insert_order _ hk'
    · rw [hexec]
      exact (h.settled hn).rewriteOrder hsome _
  · intro hl
    change Settled ((Op.orders (.update (orderKey k)
        { confirmed with paymentReference := some entity.id })).exec s.data).2.orders
      ((Op.orders (.update (orderKey k)
        { confirmed with paymentReference := some entity.id })).exec s.data).2.sessions
    rw [hexec]
    exact (hg hl).rewriteOrder hsome _

/-- A reconciliation fails for what the delivery says, and not for the order it finds. -/
def Reconciled : Except WebhookError WebhookOutcome → Prop
  | .error (.orderState _) | .error (.store _) => False
  | _ => True

theorem reconcilePayment_ensures {signature : String} {body : Bytes} {client : RazorpayConfig}
    {key : String} {entity : WebhookPaymentEntity} {now : Int64} (h : Guard i s)
    (hcall : i.request.call = .razorpayWebhook (some signature) body now)
    (hclient : razorpayForState ext st = .ok client)
    (hrep : reported ext.crypto ext.readEnvelope client body signature = .ok (some (key, entity))) :
    (spec ext st).Ensures i (fun r u => Reconciled r ∧ Guard i u)
      (reconcilePayment key entity.id entity now) s := by
  rw [reconcilePayment, Spec.ensures_locked (P := spec ext st)]
  intro s1 hr1 hi1
  refine ⟨h.rely hr1, fun hf => ?_⟩
  obtain ⟨hi2, hg2⟩ := (h.rely hr1).acquire hi1 hf
  refine ⟨hi2, ?_⟩
  rw [Spec.ensures_perform_bind (P := spec ext st)]
  intro s3 hr3 hi3 _
  have hl3 : s3.held .orders = some i := (hr3.held _).mpr (s1.acquire_held_self i _)
  have hmay : May i.request {.orders} (Op.orders (.get key)) :=
    may_read (by simp [Op.need]) (fun hw => hw)
  obtain ⟨hn, hgood, hg4⟩ := harmless.perform {.orders} _ s3 hmay
    (fun l hl => Set.mem_singleton_iff.mp hl ▸ hl3) hi3 (hg2.rely hr3) trivial
  refine ⟨hn, hgood, ?_⟩
  have hget : ((app ext st).exec (Op.orders (.get key)) s3.data).1 = s3.data.orders.get key := rfl
  rw [hget, Spec.ensures_okOr_bind (P := spec ext st)]
  cases ho : s3.data.orders.get key with
  | none => exact hg4.answer hl3 trivial
  | some order =>
      dsimp only
      cases hr : order.paymentReference with
      | some existing => exact hg4.answer hl3 trivial
      | none =>
          dsimp only
          split
          · exact hg4.answer hl3 trivial
          next hset =>
            obtain ⟨hamount, hcurrency⟩ := settles_iff.mpr hset
            obtain ⟨k, x, hk, hshape, -⟩ := hi3.consistent.order key order ho
            obtain ⟨confirmed, ha, -⟩ := hshape.confirm hr now entity.id
            rw [Spec.ensures_mapErr_bind (P := spec ext st), ha]
            dsimp only
            rw [Spec.ensures_perform_bind (P := spec ext st)]
            intro s5 hr5 hi5 _
            have hl5 : s5.held .orders = some i := (hr5.held _).mpr hl3
            have ho5 : s5.data.orders.get key = some order := by
              rw [(hr5.same .orders hl3).1.1]
              exact ho
            have hpaid : PaidBy ext st i.request key order.totals.total entity.id :=
              ⟨signature, body, now, client, entity, hcall, hclient, hrep, rfl, hamount, hcurrency⟩
            obtain ⟨hi6, hg6⟩ := payOrder_keeps hi5 (hg4.rely hr5) hpaid ho5 hr ha
            refine ⟨fun l hl => ?_, ⟨hi6, trivial⟩, ?_⟩
            · rcases hl with hl | ⟨-, key', y, he⟩
              · obtain rfl : l = Lock.orders := hl
                exact hl5
              · cases he
            · have hresp := congrArg Prod.fst
                (updateOrder_exec ho5 { confirmed with paymentReference := some entity.id })
              rw [show ((app ext st).exec (Op.orders (.update key
                { confirmed with paymentReference := some entity.id })) s5.data).1 = .ok () from
                  hresp, Spec.ensures_mapErr_bind (P := spec ext st)]
              exact hg6.answer hl5 trivial

theorem Reconciled.expected {e : WebhookError} (h : Reconciled (.error e)) :
    (webhookErrorResponse e).status ≠ 500 ∧ ((webhookErrorResponse e).status = 409 →
      ∃ expected got, webhookErrorResponse e = webhookErrorResponse (.amountMismatch expected got)) := by
  cases e with
  | orderState message | store e => exact h.elim
  | amountMismatch expected got => exact ⟨by simp [webhookErrorResponse], fun _ => ⟨_, _, rfl⟩⟩
  | _ => simp [webhookErrorResponse]

theorem processPaymentWebhook_ensures {signature : String} {body : Bytes} {client : RazorpayConfig}
    {now : Int64} (h : Guard i s)
    (hcall : i.request.call = .razorpayWebhook (some signature) body now)
    (hclient : razorpayForState ext st = .ok client) :
    (spec ext st).Ensures i (fun r u => Reconciled r ∧ Guard i u)
      (processPaymentWebhook ext.crypto ext.readEnvelope client body signature now) s := by
  rw [processPaymentWebhook, Spec.ensures_mapErr_bind (P := spec ext st)]
  cases hs : verifyWebhookSignature ext.crypto client body signature with
  | error e => cases e <;> exact ⟨trivial, h⟩
  | ok u =>
      dsimp only
      rw [Spec.ensures_mapErr_bind (P := spec ext st)]
      cases he : ext.readEnvelope body with
      | error e => exact ⟨trivial, h⟩
      | ok envelope =>
          dsimp only
          split
          · exact ⟨trivial, h⟩
          next hp =>
            rw [Spec.ensures_okOr_bind (P := spec ext st)]
            cases hk : envelope.payload.payment.entity.notes.lookup "order_id" with
            | none => exact ⟨trivial, h⟩
            | some key =>
                refine reconcilePayment_ensures h hcall hclient ?_
                simp only [reported, hs, he, if_neg hp, hk]

theorem razorpayWebhook_ensures {signature : Option String} {body : Bytes} {now : Int64}
    (h : Guard i s) (hcall : i.request.call = .razorpayWebhook signature body now) :
    (spec ext st).Ensures i (fun r _ => Expected i.request.call (.webhook r))
      (razorpayWebhook ext st signature body now) s := by
  rw [hcall, razorpayWebhook, Spec.ensures_okOr_bind (P := spec ext st)]
  cases signature with
  | none => exact ⟨by simp, by simp⟩
  | some text =>
      dsimp only
      rw [Spec.ensures_mapErr_bind (P := spec ext st)]
      cases hclient : razorpayForState ext st with
      | error e => cases e <;> exact ⟨by simp [razorpayErrorResponse], by simp [razorpayErrorResponse]⟩
      | ok client =>
          dsimp only
          rw [Spec.ensures_bind (P := spec ext st), Spec.ensures_adaptErr (P := spec ext st)]
          refine (processPaymentWebhook_ensures h hcall hclient).mono ?_
          rintro r u ⟨hr, hg⟩
          cases r with
          | error e => exact hr.expected
          | ok outcome =>
              have hmay : May i.request ∅ Op.webhookVerified :=
                may_read (by simp [Op.need]) (fun hw => hw)
              exact Ensures.perform_bind (H := ∅) harmless hmay hg (by simp)
                (fun _ _ _ _ _ _ => trivial)

end Others

section Inside

/-- A completion past its checks, and what the stores hold that it has locked. -/
structure Inside (i : Name Request) (orders : Orders) (sessions : Sessions) (s : State) : Prop where
  heldOrders : s.held .orders = some i
  heldSessions : s.held .sessions = some i
  orders : s.data.orders = orders
  sessions : s.data.sessions = sessions

variable {α : Type} {post : Except ApiError α → State → Prop}

theorem Inside.rely (h : Inside i orders sessions s) (hr : (spec ext st).Rely i s s') :
    Inside i orders sessions s' where
  heldOrders := (hr.held _).mpr h.heldOrders
  heldSessions := (hr.held _).mpr h.heldSessions
  orders := by
    have hs : s'.data.orders = s.data.orders := (hr.same .orders h.heldOrders).1.1
    rw [hs, h.orders]
  sessions := by
    have hs : s'.data.sessions = s.data.sessions := (hr.same .sessions h.heldSessions).1
    rw [hs, h.sessions]

theorem Inside.perform {orders' : Orders} {sessions' : Sessions} {f : o.Resp → Handler ApiError α}
    (h : Inside i orders sessions s) (hn : ∀ l, o.need l → l = .orders ∨ l = .sessions)
    (hexec : ∀ d, d.orders = orders → d.sessions = sessions →
      (o.exec d).2.orders = orders' ∧ (o.exec d).2.sessions = sessions')
    (hc : Consistent orders sessions → Consistent orders' sessions')
    (hstep : Step ext st i.request (stage orders sessions) (stage orders' sessions'))
    (rest : ∀ s', Inv ext st s' → Inside i orders sessions s' →
      Inside i orders' sessions' (s'.perform Op.exec i o) →
        (spec ext st).Ensures i post (f (o.exec s'.data).1) (s'.perform Op.exec i o)) :
    (spec ext st).Ensures i post (Server.perform o >>= f) s := by
  rw [Spec.ensures_perform_bind (P := spec ext st)]
  intro s' hr hi _
  have h' := h.rely hr
  obtain ⟨ho, hs⟩ := hexec s'.data h'.orders h'.sessions
  refine ⟨fun l hl => ?_, ⟨?_, trivial⟩, rest s' hi h' ⟨h'.heldOrders, h'.heldSessions, ho, hs⟩⟩
  · rcases hl with hl | ⟨rfl, -⟩
    · rcases hn l hl with rfl | rfl
      · exact h'.heldOrders
      · exact h'.heldSessions
    · exact h'.heldSessions
  · have hc' := hi.consistent
    rw [h'.orders, h'.sessions] at hc'
    have hbefore : stageOf s'.data = stage orders sessions := by
      funext k
      rw [stageOf, h'.orders, h'.sessions]
    have hafter : stageOf (o.exec s'.data).2 = stage orders' sessions' := by
      funext k
      rw [stageOf, ho, hs]
    refine hi.perform ?_ ?_ (fun hn => ?_)
    · rw [ho, hs]
      exact hc hc'
    · rw [hbefore, hafter]
      exact hstep
    · rw [h'.heldSessions] at hn
      cases hn

theorem Inside.look {f : o.Resp → Handler ApiError α} (h : Inside i orders sessions s)
    (hn : ∀ l, o.need l → l = .orders ∨ l = .sessions) (ho : ¬ Writes o)
    (rest : ∀ s', Inv ext st s' → Inside i orders sessions s' →
      Inside i orders sessions (s'.perform Op.exec i o) →
        (spec ext st).Ensures i post (f (o.exec s'.data).1) (s'.perform Op.exec i o)) :
    (spec ext st).Ensures i post (Server.perform o >>= f) s := by
  refine h.perform hn (fun d hd hs => ?_) id (.inl rfl) rest
  obtain ⟨horders, hsessions⟩ := stores_of_not_writes ho d
  exact ⟨horders.trans hd, hsessions.trans hs⟩

/-- The charge and the receipt, under a lock of their own: a completion can be dropped there. -/
theorem Inside.locked {l : Lock} {f : o.Resp → Handler ApiError α}
    (h : Inside i orders sessions s) (hset : Settled orders sessions) (hlo : l ≠ .orders)
    (hls : l ≠ .sessions) (hn : ∀ m, o.need m → m = l ∨ m = .orders) (ho : ¬ Writes o)
    (rest : ∀ s' u : State, Inside i orders sessions u →
      (spec ext st).Ensures i post (f (o.exec s'.data).1) u) :
    (spec ext st).Ensures i post (Fallible.locked l (Server.perform o) >>= f) s := by
  have hguard {u : State} (hu : Inside i orders sessions u) : Guard i u := by
    intro _
    rw [hu.orders, hu.sessions]
    exact hset
  rw [Spec.ensures_bind (P := spec ext st), Spec.ensures_locked (P := spec ext st)]
  intro s1 hr1 hi1
  have h1 := h.rely hr1
  refine ⟨hguard h1, fun hf => ?_⟩
  obtain ⟨hi2, -⟩ := (hguard h1).acquire hi1 hf
  have h2 : Inside i orders sessions (s1.acquire i l) := by
    refine ⟨?_, ?_, h1.orders, h1.sessions⟩
    · rw [s1.acquire_held_ne i hlo.symm, h1.heldOrders]
    · rw [s1.acquire_held_ne i hls.symm, h1.heldSessions]
  refine ⟨hi2, ?_⟩
  rw [Spec.ensures_perform (P := spec ext st)]
  intro s3 hr3 hi3 _
  have h3 := h2.rely hr3
  have hl3 : s3.held l = some i := (hr3.held _).mpr (s1.acquire_held_self i l)
  obtain ⟨horders, hsessions⟩ := stores_of_not_writes ho s3.data
  have h4 : Inside i orders sessions (s3.perform Op.exec i o) :=
    ⟨h3.heldOrders, h3.heldSessions, horders.trans h3.orders, hsessions.trans h3.sessions⟩
  refine ⟨fun m hm => ?_, ⟨hi3.perform_of_not_writes ho, trivial⟩, fun u hru hiu => ?_⟩
  · rcases hm with hm | ⟨-, key, x, rfl⟩
    · rcases hn m hm with rfl | rfl
      · exact hl3
      · exact h3.heldOrders
    · exact absurd trivial ho
  · have h5 := h4.rely hru
    have hlu : u.held l = some i := (hru.held l).mpr hl3
    refine ⟨hlu, ((hguard h5).release hiu hlu).1, rest s3 (u.release l) ?_⟩
    refine ⟨?_, ?_, h5.orders, h5.sessions⟩
    · rw [u.release_held_ne hlo.symm, h5.heldOrders]
    · rw [u.release_held_ne hls.symm, h5.heldSessions]

def Ended (i : Name Request) (x : Except ApiError Order) (u : State) : Prop :=
  (∃ orders sessions, Inside i orders sessions u ∧ Settled orders sessions) ∧
    ∀ e, x = .error e → e = .notFound ∨ e = .conflict "session is not completable" ∨
      ∃ message, e = .spendLimit message

variable {session : CheckoutSession}

theorem storeOrder_ensures {now : Int64} (h : Inside i orders sessions s)
    (hset : Settled orders sessions) (hk : completes i.request = some k)
    (ho : orders.get (orderKey k) = none) (hs : sessions.get k = some session)
    (hp : session.status = .pending) :
    (spec ext st).Ensures i (fun r u => r = .ok (Order.new (orderKey k) k session.totals now) ∧
        ∃ orders' sessions', Inside i orders' sessions' u ∧ Settled orders' sessions')
      (storeOrder k session now) s := by
  have hst : ¬ (session.status ≠ .paid ∧ session.status.isTerminal = true) := by
    rw [hp]
    rintro ⟨-, ht⟩
    cases ht
  have hcreate (d : Data) (hd : d.orders = orders) (order : Order) :
      (Op.orders (.create (orderKey k) order)).exec d =
        (.ok (), { d with orders := orders.insert (orderKey k) order }) := by
    rw [Op.exec, StoreOp.exec, hd, InMemoryStore.create_of_none ho]
    rfl
  have hupdate (d : Data) (hd : d.sessions = sessions) (paid : CheckoutSession) :
      (Op.sessions (.update k paid)).exec d =
        (.ok (), { d with sessions := sessions.insert k paid }) := by
    rw [Op.exec, StoreOp.exec, hd, InMemoryStore.update_of_some hs]
    rfl
  rw [storeOrder_of_completable now hst]
  refine h.perform (by simp [Op.need]) (fun d hd hds => ?_)
    (fun hc => hc.insertOrder hs (by rw [hp]; simp) (.placed session.totals now) rfl)
    (.inr ⟨k, ?_, fun k' hk' => stage_insert_order _ hk'⟩) (fun s1 _ h1 h1' => ?_)
  · rw [hcreate d hd]
    exact ⟨rfl, hds⟩
  · have hbefore : stage orders sessions k = .pending := by
      rw [stage_of_session ho hs, Stage.ofSession, hp]
      rfl
    rw [hbefore, stage_of_order (InMemoryStore.get_insert_self _ _ _)]
    exact .completed session.totals.total hk
  · rw [hcreate s1.data h1.orders, Spec.ensures_mapErr_bind (P := spec ext st)]
    have horder : (orders.insert (orderKey k)
        (Order.new (orderKey k) k session.totals now)).get (orderKey k) = some _ :=
      InMemoryStore.get_insert_self _ _ _
    refine h1'.perform (by simp [Op.need]) (fun d hd hds => ?_)
      (fun hc => hc.updateSession hs (.inr ⟨rfl, by rw [horder]; rfl⟩))
      (.inl ?_) (fun s2 _ h2 h2' => ?_)
    · rw [hupdate d hds]
      exact ⟨hd, rfl⟩
    · funext k'
      by_cases hk' : k' = k
      · subst hk'
        rw [stage_of_order horder, stage_of_order horder]
      · exact stage_insert_session _ hk'
    · rw [hupdate s2.data h2.sessions, Spec.ensures_mapErr_bind (P := spec ext st)]
      refine h2'.look (by simp [Op.need]) (fun hw => hw) (fun s3 _ h3 h3' => ?_)
      exact ⟨rfl, _, _, h3', hset.complete _ rfl⟩

theorem placeOrder_ensures {agent : Option String} {now issuedAt : Int64}
    (h : Inside i orders sessions s) (hset : Settled orders sessions)
    (hk : completes i.request = some k) (ho : orders.get (orderKey k) = none)
    (hs : sessions.get k = some session) (hp : session.status = .pending) :
    (spec ext st).Ensures i (Ended i) (placeOrder agent k session now issuedAt) s := by
  cases agent with
  | none =>
      rw [placeOrder_none]
      refine (storeOrder_ensures h hset hk ho hs hp).mono ?_
      rintro r u ⟨rfl, hu⟩
      exact ⟨hu, fun e he => by cases he⟩
  | some a =>
      rw [placeOrder_some, Server.chargeAgent, bind_assoc]
      refine h.locked hset (by simp) (by simp) (by simp [Op.need]) (fun hw => hw)
        (fun s1 u1 h1 => ?_)
      rw [Spec.ensures_mapErr_bind (P := spec ext st)]
      split
      · rw [Spec.ensures_bind (P := spec ext st)]
        refine (storeOrder_ensures h1 hset hk ho hs hp).mono ?_
        rintro r u ⟨rfl, orders', sessions', hu, hset'⟩
        dsimp only
        rw [issueReceipt, bind_assoc]
        exact hu.locked hset' (by simp) (by simp) (by simp [Op.need]) (fun hw => hw)
          (fun s3 u3 h3 => ⟨⟨_, _, h3, hset'⟩, fun e he => by cases he⟩)
      · exact ⟨⟨_, _, h1, hset⟩, fun e he => by cases he; exact .inr (.inr ⟨_, rfl⟩)⟩

theorem completion_ensures {agent : Option String} {now issuedAt : Int64}
    (h : Inside i orders sessions s) (hset : Settled orders sessions)
    (hk : completes i.request = some k) :
    (spec ext st).Ensures i (Ended i) (do
      match ← Server.perform (.orders (.get (orderKey k))) with
      | some order => return order
      | none =>
          let session ← Fallible.okOr ApiError.notFound (← Server.perform (.sessions (.get k)))
          if session.status ≠ .paid ∧ session.status.isTerminal then
            throw (.conflict "session is not completable")
          placeOrder agent k session now issuedAt) s := by
  refine h.look (by simp [Op.need]) (fun hw => hw) (fun s1 _ h1 h2 => ?_)
  have hget : (Op.exec (.orders (.get (orderKey k))) s1.data).1 = orders.get (orderKey k) := by
    rw [← h1.orders]
    rfl
  rw [hget]
  cases ho : orders.get (orderKey k) with
  | some order => exact ⟨⟨_, _, h2, hset⟩, fun e he => by cases he⟩
  | none =>
      refine h2.look (by simp [Op.need]) (fun hw => hw) (fun s3 hi3 h3 h4 => ?_)
      have hget' : (Op.exec (.sessions (.get k)) s3.data).1 = sessions.get k := by
        rw [← h3.sessions]
        rfl
      rw [hget', Spec.ensures_okOr_bind (P := spec ext st)]
      cases hs : sessions.get k with
      | none => exact ⟨⟨_, _, h4, hset⟩, fun e he => by cases he; exact .inl rfl⟩
      | some session =>
          dsimp only
          split
          · exact ⟨⟨_, _, h4, hset⟩, fun e he => by cases he; exact .inr (.inl rfl)⟩
          next hst =>
            have hc := hi3.consistent
            rw [h3.orders, h3.sessions] at hc
            exact placeOrder_ensures h4 hset hk ho hs (hc.open_of_completable hs ho hst)

theorem Ended.release {x : Except ApiError Order} {u : State} (h : Ended i x s)
    (hr : (spec ext st).Rely i s s') (hi : Inv ext st s') :
    s'.held .sessions = some i ∧ Inv ext st (s'.release Lock.sessions) ∧
      ((spec ext st).Rely i (s'.release Lock.sessions) u → Inv ext st u →
        u.held .orders = some i ∧ Inv ext st (u.release Lock.orders)) := by
  obtain ⟨⟨orders, sessions, hin, hset⟩, -⟩ := h
  have h' := hin.rely hr
  have hg : Guard i s' := by
    intro _
    rw [h'.orders, h'.sessions]
    exact hset
  obtain ⟨hi', hg'⟩ := hg.release hi h'.heldSessions
  refine ⟨h'.heldSessions, hi', fun hru hiu => ?_⟩
  have ho : u.held .orders = some i := by
    rw [hru.held, s'.release_held_ne (by simp), h'.heldOrders]
  exact ⟨ho, ((hg'.rely hru).release hiu ho).1⟩

theorem completeCheckout_ensures {agent : Option String} {now issuedAt : Int64}
    (hk : completes i.request = some k) (hnew : s.Newcomer i) :
    (spec ext st).Ensures i (fun x _ => ∀ e, x = .error e → e = .notFound ∨
      e = .conflict "session is not completable" ∨ ∃ message, e = .spendLimit message)
      (completeCheckout agent k now issuedAt) s := by
  have hguard : Guard i s := fun hl => absurd hl (hnew.held _)
  rw [completeCheckout, Spec.ensures_locked (P := spec ext st)]
  intro s1 hr1 hi1
  refine ⟨hguard.rely hr1, fun hf1 => ?_⟩
  obtain ⟨hi2, hg2⟩ := (hguard.rely hr1).acquire hi1 hf1
  refine ⟨hi2, ?_⟩
  rw [Spec.ensures_locked (P := spec ext st)]
  intro s3 hr3 hi3
  refine ⟨hg2.rely hr3, fun hf3 => ?_⟩
  obtain ⟨hi4, hg4⟩ := (hg2.rely hr3).acquire hi3 hf3
  refine ⟨hi4, ?_⟩
  have hin : Inside i s3.data.orders s3.data.sessions (s3.acquire i Lock.sessions) := by
    refine ⟨?_, s3.acquire_held_self i _, rfl, rfl⟩
    rw [s3.acquire_held_ne i (by simp), hr3.held, s1.acquire_held_self]
  refine (completion_ensures hin (hi3.settled hf3) hk).mono ?_
  intro x u hend u' hru hiu
  obtain ⟨hl, hi5, -⟩ := hend.release (u := u') hru hiu
  refine ⟨hl, hi5, fun w hrw hiw => ?_⟩
  obtain ⟨-, -, hrest⟩ := hend.release (u := w) hru hiu
  obtain ⟨ho, hi6⟩ := hrest hrw hiw
  exact ⟨ho, hi6, hend.2⟩

end Inside

theorem handler_holds (hnew : s.Newcomer i) :
    (spec ext st).Holds i ((spec ext st).post i) (handler ext st i.request) s := by
  have hguard : Guard i s := fun hl => absurd hl (hnew.held _)
  obtain ⟨n, agent, call⟩ := i
  have rest (hp : ∀ o, Request.performs ⟨agent, call⟩ o → ¬ Writes o)
      (hr : (handler ext st ⟨agent, call⟩).Yields (Expected call)) :
      (spec ext st).Holds ⟨n, agent, call⟩ ((spec ext st).post ⟨n, agent, call⟩)
        (handler ext st ⟨agent, call⟩) s :=
    ((Spec.Holds.of_respects harmless ((handler_respects ext st ⟨agent, call⟩).mono
      (fun H o ho => may_read ho.2 (hp o ho.1))) hguard (by simp)).yields hr).mono
        (fun _ _ h => h.2)
  cases call with
  | createCheckoutSession body now =>
      refine holds_replyTo.mpr ((Ensures.of_respects harmless
        (createCheckoutSession_respects ?_ ?_ ?_ ?_) hguard (by simp)).mono (fun r _ _ => ?_))
      · exact may_read (by simp [Op.need]) (fun hw => hw)
      · exact may_read (by simp [Op.need]) (fun hw => hw)
      · exact may_read (by simp [Op.need]) (fun hw => hw)
      · exact fun id cart totals _ => ⟨by simp [Op.need], .inr ⟨body, now, id, _, rfl, rfl, rfl⟩⟩
      · cases r with
        | error e => exact fun _ hcall => by cases hcall
        | ok session => trivial
  | completeCheckout id now issuedAt =>
      refine holds_replyTo.mpr ((completeCheckout_ensures rfl hnew).mono (fun x _ hx => ?_))
      cases x with
      | error e => exact hx e rfl
      | ok order => trivial
  | cancelCheckout id =>
      exact holds_replyTo.mpr ((cancelCheckout_ensures hguard rfl).mono (fun _ _ h => h.1))
  | razorpayWebhook signature body now =>
      exact holds_replyTo.mpr (razorpayWebhook_ensures hguard rfl)
  | _ =>
      refine rest (fun o ho => ?_) ?_
      · cases o with
        | sessions o | orders o =>
            cases o <;> first | exact fun hw => hw | simp [Server.Request.performs] at ho
        | _ => exact fun hw => hw
      · first | exact Shown.replyTo_yields _ _ (fun _ => trivial) | exact fun _ => trivial

variable (ext st) in
theorem admits : (spec ext st).Admits (fun _ _ => True) where
  spawn _ _ _ _ hnew := handler_holds hnew
  step _ _ _ _ _ _ _ _ := trivial
  drop _ _ _ _ _ _ _ _ := trivial
  stable _ _ _ _ _ h := h

theorem inv_start (crypto : Crypto) : Inv ext st (.start (Data.new crypto)) where
  consistent := ⟨fun _ _ h => (by cases h), fun _ _ h => (by cases h)⟩
  steps _ he := by cases he
  settled _ := fun _ h => by cases h

section Server

open Shown (Calls Answers shell shown_run)

variable {lib : Libraries} {c c' : World serverSignature ServerData Arrival Response}

abbrev stageIn (d : ServerData) : String → Stage := stageOf d.data

/-- What holds of the checkouts of a server in any state it reaches. -/
structure Tracked (lib : Libraries) (st : AppState)
    (c : World serverSignature ServerData Arrival Response) : Prop where
  consistent : Consistent c.shared.data.data.orders c.shared.data.data.sessions
  settled : c.shared.held (.inl Lock.sessions) = none →
    Settled c.shared.data.data.orders c.shared.data.data.sessions
  steps : ∀ e ∈ c.shared.history, stageIn ((server lib st).exec e.op e.before).2 = stageIn e.before ∨
    ∃ q, Calls lib e.actor.request q ∧ Step lib.toPlatform st q (stageIn e.before)
      (stageIn ((server lib st).exec e.op e.before).2)

def Moved (lib : Libraries) (st : AppState)
    (c : World serverSignature ServerData Arrival Response) (k : String) (x y : Stage) : Prop :=
  ∃ e ∈ c.shared.history, ∃ q, Calls lib e.actor.request q ∧ Moves lib.toPlatform st q k x y

def Forward (lib : Libraries) (st : AppState)
    (c : World serverSignature ServerData Arrival Response) (k : String) (d d' : ServerData) : Prop :=
  Relation.ReflTransGen (Moved lib st c k) (stageIn d k) (stageIn d' k)

theorem tracked {writes reads : UInt32} (h : (server lib st).Runs (fun _ _ => True)
    (.start (.new lib.crypto writes reads)) c) : Tracked lib st c := by
  obtain ⟨w, place, hruns, hshows⟩ := shown_run h
  have hw := Spec.Sound.runs (admits lib.toPlatform st)
    (Spec.sound_start (P := spec lib.toPlatform st) (inv_start lib.crypto))
      (hruns.mono (fun _ _ _ => trivial))
  have hi : Inv lib.toPlatform st w.shared := hw.inv
  have hdata : w.shared.data = c.shared.data.data := hshows.data
  constructor
  · rw [← hdata]
    exact hi.consistent
  · intro hnone
    rw [← hdata]
    apply hi.settled
    cases hl : w.shared.held Lock.sessions with
    | none => rfl
    | some j =>
        obtain ⟨n, a, -, hl'⟩ := hshows.held _ j hl
        rw [hnone] at hl'
        cases hl'
  · intro e he
    rcases hshows.history.transfer (fun q d d' => Step lib.toPlatform st q (stageOf d) (stageOf d'))
      hi.steps he with hd | hq
    · exact .inl (congrArg stageOf hd)
    · exact .inr hq

theorem Tracked.moved (h : Tracked lib st c)
    {e : Event serverSignature ServerData Arrival} (he : e ∈ c.shared.history) (k : String) :
    stageIn ((server lib st).exec e.op e.before).2 k = stageIn e.before k ∨
      Moved lib st c k (stageIn e.before k) (stageIn ((server lib st).exec e.op e.before).2 k) := by
  rcases h.steps e he with hsame | ⟨q, hq, hsame | ⟨k', hmove, hothers⟩⟩
  · exact .inl (congrFun hsame k)
  · exact .inl (congrFun hsame k)
  · by_cases hk : k = k'
    · subst hk
      exact .inr ⟨e, he, q, hq, hmove⟩
    · exact .inl (hothers k hk)

theorem Tracked.leads {A : World serverSignature ServerData Arrival Response → Action Arrival → Prop}
    (h' : Tracked lib st c') (h : (server lib st).Runs A c c') (k : String) :
    Forward lib st c' k c.shared.data c'.shared.data := by
  obtain ⟨news, hhist, hleads, -⟩ := h.leads (G := fun _ => True) (fun _ _ _ _ _ _ _ => trivial)
  have hrefl (d : ServerData) : Forward lib st c' k d d := .refl
  refine hleads.related hrefl (fun hab hbc => Relation.ReflTransGen.trans hab hbc)
    (fun e he => ?_)
  have hmem : e ∈ c'.shared.history := hhist ▸ List.mem_append_left _ he
  rcases h'.moved hmem k with hsame | hmove
  · rw [Forward, hsame]
  · exact .single hmove

def shopLibraries : Libraries := { Libraries.bare with toPlatform := Money.paying }

def delivered : List (Action Arrival) :=
  System.enter 0 (.tool (.createCart ⟨none, [⟨"p-1", 2⟩]⟩)) 4 ++
  System.enter 1 (.toolCheckout "cart-0" 0 0 0) 19 ++
  System.enter 2 (.http ⟨"POST", ⟨none, none, some "/webhooks/razorpay"⟩,
    [("x-razorpay-signature", utf8 (toHex (Money.paying.crypto.hmacSha256 (utf8 "s") [1])))], [1]⟩
    none ⟨0, 0, 5, 0, .ok ""⟩) 8

/-- In every run of the server the checkouts keep to their life cycle: whatever is performed
moves one checkout by one move at most, for a request that may make it; a cancelled checkout
has no order, an order has the totals of its session, and is that of a paid session as soon as
nobody holds the sessions; and from one moment to a later one a checkout only goes forward,
along moves of requests in the run. -/
theorem checkouts_tracked (lib : Libraries) (st : AppState) (writes reads : UInt32)
    (h : (server lib st).Runs (fun _ _ => True) (.start (.new lib.crypto writes reads)) c) :
    Tracked lib st c ∧ ∀ c', (server lib st).Runs (fun _ _ => True) c c' → ∀ k,
      Forward lib st c' k c.shared.data c'.shared.data :=
  ⟨tracked h, fun _ h' => (tracked (h.trans h')).leads h'⟩

theorem checkouts_tracked_delivered :
    ∃ c : World serverSignature ServerData Arrival Response,
      stageIn c.shared.data "cs-1" = .paid ⟨1000, .USD⟩ "pay-1" ∧
        Relation.ReflTransGen (Moved shopLibraries Money.payingShop c "cs-1") .absent
          (.paid ⟨1000, .USD⟩ "pay-1") := by
  have hplay : (((server shopLibraries Money.payingShop).play (fun _ _ => True)
      (.start (.new shopLibraries.crypto 60 120)) delivered).map
        (fun c => stageIn c.shared.data "cs-1")) = some (.paid ⟨1000, .USD⟩ "pay-1") := by
    decide +kernel
  obtain ⟨c, hc, hstage⟩ := Option.map_eq_some_iff.mp hplay
  obtain ⟨-, hleads⟩ := checkouts_tracked shopLibraries Money.payingShop 60 120 .refl
  have hpaid := hleads c (System.play_runs hc) "cs-1"
  rw [Forward, hstage] at hpaid
  exact ⟨c, hstage, hpaid⟩

def replyOf : Response → Option Reply
  | .reply r => some r
  | _ => none

end Server

end AiterCommerce.Guarantees.Lifecycle
