import AiterCommerce.Guarantees.Books

namespace AiterCommerce.Guarantees.Completion

open AiterCommerce.Core Concurrent Server Books
open Spec (Ensures Harmless)

/-- What never changes back: a session that is paid, cancelled or failed stays
so, orders stay, the log only grows, and a session gets its receipts once. -/
structure Later (a b : Data) : Prop where
  terminal : ∀ k x, a.sessions.get k = some x → x.status.isTerminal = true →
    ∃ y, b.sessions.get k = some y ∧ y.status = x.status
  orders : ∀ key, (a.orders.get key).isSome → (b.orders.get key).isSome
  entries : a.audit.entries <+: b.audit.entries
  receipts : ∀ k, receipts k a.audit ≠ [] → receipts k b.audit = receipts k a.audit

namespace Later

theorem refl (d : Data) : Later d d :=
  ⟨fun _ x h _ => ⟨x, h, rfl⟩, fun _ h => h, List.prefix_rfl, fun _ _ => rfl⟩

theorem trans {a b c : Data} (h : Later a b) (h' : Later b c) : Later a c where
  terminal k x hx ht := by
    obtain ⟨y, hy, hyx⟩ := h.terminal k x hx ht
    obtain ⟨z, hz, hzy⟩ := h'.terminal k y hy (hyx ▸ ht)
    exact ⟨z, hz, hzy.trans hyx⟩
  orders key hk := h'.orders key (h.orders key hk)
  entries := h.entries.trans h'.entries
  receipts k hr := by
    have hb := h.receipts k hr
    rw [h'.receipts k (hb ▸ hr), hb]

variable {a b : Data}

theorem of_eq (ho : b.orders = a.orders) (hs : b.sessions = a.sessions) (hl : b.audit = a.audit) :
    Later a b where
  terminal _ x h _ := ⟨x, hs ▸ h, rfl⟩
  orders _ h := ho ▸ h
  entries := hl ▸ List.prefix_rfl
  receipts _ _ := by rw [hl]

theorem of_session {id : String} {x : CheckoutSession} (ho : b.orders = a.orders)
    (hl : b.audit = a.audit) (hs : b.sessions = a.sessions.insert id x)
    (hold : ∀ y, a.sessions.get id = some y → y.status.isTerminal = true → x.status = y.status) :
    Later a b where
  terminal k y hy ht := by
    rw [hs, InMemoryStore.get_insert]
    split
    next hk => subst hk; exact ⟨x, rfl, hold y hy ht⟩
    next => exact ⟨y, hy, rfl⟩
  orders _ h := ho ▸ h
  entries := hl ▸ List.prefix_rfl
  receipts _ _ := by rw [hl]

theorem of_order {key : String} {o : Order} (ho : b.orders = a.orders.insert key o)
    (hl : b.audit = a.audit) (hs : b.sessions = a.sessions) : Later a b where
  terminal _ x h _ := ⟨x, hs ▸ h, rfl⟩
  orders k h := by
    rw [ho, InMemoryStore.get_insert]
    split
    · rfl
    · exact h
  entries := hl ▸ List.prefix_rfl
  receipts _ _ := by rw [hl]

theorem of_receipt {r : Receipt} {k : String} (ho : b.orders = a.orders)
    (hs : b.sessions = a.sessions) (hl : b.audit = (a.audit.push r).2)
    (hr : r.id = receiptId (orderKey k)) (hn : Books.receipts k a.audit = []) : Later a b where
  terminal _ x h _ := ⟨x, hs ▸ h, rfl⟩
  orders _ h := ho ▸ h
  entries := by
    rw [hl, AppendOnlyLog.push_entries]
    exact List.prefix_append _ _
  receipts k' hk := by
    have hne : r.id ≠ receiptId (orderKey k') := fun he => hk (by
      rw [← orderKey_injective (receiptId_injective (hr.symm.trans he)), hn])
    rw [hl, View.receipts_push, if_neg hne, List.append_nil]

end Later

structure Both (held : Lock → Option (Name Request)) (i : Name Request) : Prop where
  completes : (completes i.request).isSome
  orders : held .orders = some i
  sessions : held .sessions = some i

/-- A completion has done all but its receipt. -/
def Owing (v : View) (i : Name Request) : Prop :=
  ∃ k a amount, completes i.request = some k ∧ v.Owed k (some a) amount

/-- What the end of a completion says. The receipt is there for every charge made
up to some moment after the completion began. -/
structure Answered (i : Name Request) (k : String) (x : Except ApiError Order) (s : State) :
    Prop where
  order : ∀ o, x = .ok o → o.id = orderKey k ∧ (s.data.orders.get (orderKey k)).isSome
  receipt : ∃ h, h <:+ s.history ∧ (∃ e ∈ h, e.actor = i) ∧
    (h.filterMap (chargeOf k) ≠ [] → (receipts k s.data.audit).length = 1)

variable (ext : Platform) (st : AppState)

theorem quiet_abandon {i : Name Request} {l : Lock} {s : State}
    (hi : (∀ j, ¬ Both s.held j) → (view s).Quiet)
    (hw : Both s.held i → if l = .audit then Owing (view s) i else (view s).Quiet) (hl : l ≠ .audit)
    (hn : ∀ j, ¬ Both (s.abandon i).held j) : (view (s.abandon i)).Quiet := by
  change (view s).Quiet
  by_cases hb : Both s.held i
  · simpa [hl] using hw hb
  · refine hi (fun j hj => hn j ?_)
    have hji : j ≠ i := by rintro rfl; exact hb hj
    refine ⟨hj.completes, ?_, ?_⟩
    · simp [Shared.abandon, hj.orders, hji]
    · simp [Shared.abandon, hj.sessions, hji]

def spec : Spec (app ext st) where
  locks := discipline ext st
  inv s := (∀ i, ¬ Both s.held i) → (view s).Quiet
  evolves := Later
  evolves_refl := Later.refl
  evolves_trans := Later.trans
  allowDrop _ l _ := l ≠ .audit
  waiting i l s := Both s.held i → if l = .audit then Owing (view s) i else (view s).Quiet
  drop_inv _ _ _ := quiet_abandon
  post i r s := ∀ k x, completes i.request = some k → r = .order x → Answered i k x s

variable {ext st} {i : Name Request} {s s' : State}

theorem Answered.rely {k : String} {x : Except ApiError Order} (h : Answered i k x s)
    (hr : (spec ext st).Rely i s s') : Answered i k x s' where
  order o ho := ⟨(h.order o ho).1, hr.evolves.orders _ (h.order o ho).2⟩
  receipt := by
    obtain ⟨past, hs, hown, hone⟩ := h.receipt
    refine ⟨past, hs.trans hr.history, hown, fun hc => ?_⟩
    have hne : receipts k s.data.audit ≠ [] := fun hn => by simpa [hn] using hone hc
    rw [hr.evolves.receipts k hne, hone hc]

theorem Later.of_view (h : view s' = view s) : Later s.data s'.data :=
  .of_eq (congrArg View.orders h) (congrArg View.sessions h) (congrArg View.audit h)

section Others

theorem not_both_acquire {l : Lock} (hf : s.held l = none)
    (hb : ∀ j, ¬ Both (s.acquire i l).held j) (j : Name Request) : ¬ Both s.held j := by
  intro hj
  have hl (m : Lock) (hm : s.held m = some j) : m ≠ l := by rintro rfl; simp [hf] at hm
  refine hb j ⟨hj.completes, ?_, ?_⟩
  · rw [s.acquire_held_ne i (hl _ hj.orders), hj.orders]
  · rw [s.acquire_held_ne i (hl _ hj.sessions), hj.sessions]

theorem not_both_release (hc : completes i.request = none) {l : Lock} (hl : s.held l = some i)
    (hb : ∀ j, ¬ Both (s.release l).held j) (j : Name Request) : ¬ Both s.held j := by
  intro hj
  have hne (m : Lock) (hm : s.held m = some j) : m ≠ l := by
    rintro rfl
    obtain rfl := Option.some.inj (hl.symm.trans hm)
    exact absurd hj.completes (by simp [hc])
  refine hb j ⟨hj.completes, ?_, ?_⟩
  · rw [s.release_held_ne (hne _ hj.orders), hj.orders]
  · rw [s.release_held_ne (hne _ hj.sessions), hj.sessions]

theorem createSession_keeps (id : String) {x : CheckoutSession} (hx : x.status ≠ .paid) :
    ((view s).Quiet → (view (s.perform Op.exec i (Op.sessions (.create id x)))).Quiet) ∧
      Later s.data (s.perform Op.exec i (Op.sessions (.create id x))).data := by
  cases hs : s.data.sessions.get id with
  | some y =>
      have hv : view (s.perform Op.exec i (Op.sessions (.create id x))) = view s := by
        rw [view_perform_sessions, StoreOp.exec, InMemoryStore.create_of_some hs]
        rfl
      exact ⟨fun h => hv ▸ h, .of_view hv⟩
  | none =>
      have hv : view (s.perform Op.exec i (Op.sessions (.create id x))) =
          { view s with sessions := s.data.sessions.insert id x } := by
        rw [view_perform_sessions, StoreOp.exec, InMemoryStore.create_of_none hs]
        rfl
      refine ⟨fun h => hv ▸ h.writeSession hx (fun y hy => ?_), .of_session
        (congrArg View.orders hv) (congrArg View.audit hv) (congrArg View.sessions hv)
        (fun y hy => ?_)⟩
      · cases hs.symm.trans hy
      · cases hs.symm.trans hy

def May (H : Set Lock) (o : Op) : Prop :=
  (∀ l, o.need l → l ∈ H) ∧
    (Apart o ∨ ∃ id x, o = .sessions (.create id x) ∧ x.status ≠ .paid)

theorem harmless (hc : completes i.request = none) :
    (spec ext st).Harmless i (fun _ => True) May where
  stable _ _ _ _ := trivial
  perform H o s hm hH hi _ _ := by
    refine ⟨fun l hl => hH l (hm.1 l hl), ?_, trivial⟩
    rcases hm.2 with ha | ⟨id, x, rfl, hx⟩
    · have hv := view_perform_of_apart (s := s) (i := i) ha
      exact ⟨fun hb => hv.symm ▸ hi hb, .of_view hv⟩
    · obtain ⟨hq, hl⟩ := createSession_keeps (s := s) (i := i) id hx
      exact ⟨fun hb => hq (hi hb), hl⟩
  waiting l s _ _ hb := absurd hb.completes (by simp [hc])
  acquire l s hi _ hf := ⟨fun hb => hi (not_both_acquire hf hb), trivial⟩
  release l s hi _ hl := ⟨fun hb => hi (not_both_release hc hl hb), trivial⟩

theorem cancelSession_keeps {id : String} {session cancelled : CheckoutSession}
    (hs : s.data.sessions.get id = some session)
    (ha : session.applyEvent .markCancelled = .ok cancelled) :
    ((view s).Quiet → (view (s.perform Op.exec i (Op.sessions (.update id cancelled)))).Quiet) ∧
      Later s.data (s.perform Op.exec i (Op.sessions (.update id cancelled))).data := by
  obtain ⟨ht, rfl⟩ := CheckoutSession.applyEvent_ok ha
  have hv : view (s.perform Op.exec i
      (Op.sessions (.update id { session with status := .cancelled }))) =
      { view s with sessions := s.data.sessions.insert id { session with status := .cancelled } } := by
    rw [view_perform_sessions, StoreOp.exec, InMemoryStore.update_of_some hs]
    rfl
  refine ⟨fun h => ?_, .of_session (congrArg View.orders hv) (congrArg View.audit hv)
    (congrArg View.sessions hv) (fun y hy hterm => ?_)⟩
  · refine hv ▸ h.writeSession (by simp) (fun y hy hp => ?_)
    obtain rfl := Option.some.inj (hs.symm.trans hy)
    rw [hp] at ht
    exact absurd ht (by decide)
  · obtain rfl := Option.some.inj (hs.symm.trans hy)
    exact canTransition_of_terminal hterm ht

theorem cancelCheckout_ensures (hc : completes i.request = none) {id : String} :
    (spec ext st).Ensures i (fun _ _ => True) (cancelCheckout id) s := by
  refine (Ensures.locked_body (harmless hc) (Set.notMem_empty Lock.sessions) trivial (by simp)
    (fun s1 _ _ hH1 => ?_)).mono (fun _ _ _ => trivial)
  refine Ensures.perform_bind (harmless hc) ⟨by simp [Op.need], .inl trivial⟩ trivial hH1
    (fun s2 _ _ _ hH2 _ => ?_)
  have hget : ((app ext st).exec (Op.sessions (.get id)) s2.data).1 = s2.data.sessions.get id := rfl
  rw [hget]
  rw [Spec.ensures_okOr_bind (P := spec ext st)]
  cases hs : s2.data.sessions.get id with
  | none => exact ⟨trivial, hH2⟩
  | some session =>
      dsimp only
      split
      · rw [Spec.ensures_mapErr_bind (P := spec ext st)]
        cases ha : session.applyEvent .markCancelled with
        | error e => exact ⟨trivial, hH2⟩
        | ok cancelled =>
            dsimp only
            rw [Spec.ensures_perform_bind (P := spec ext st)]
            intro s3 hr hi3 _
            have hH3 : ∀ l ∈ insert Lock.sessions ∅, s3.held l = some i :=
              fun l hl => (hr.held l).mpr (hH2 l hl)
            have hs3 : s3.data.sessions.get id = some session := by
              rw [hr.same .sessions (hH2 _ (by simp))]
              exact hs
            obtain ⟨hq, hl⟩ := cancelSession_keeps (i := i) hs3 ha
            refine ⟨fun l hl => hH3 l (by simp_all [discipline, Op.need, spec]),
              ⟨fun hb => hq (hi3 hb), hl⟩, ?_⟩
            rw [Spec.ensures_mapErr_bind (P := spec ext st)]
            cases ((app ext st).exec (Op.sessions (.update id cancelled)) s3.data).1 <;>
              exact ⟨trivial, hH3⟩
      · exact ⟨trivial, hH2⟩

theorem payOrder_keeps {key : String} (paymentId : String) {order confirmed : Order} {now : Int64}
    (ho : s.data.orders.get key = some order)
    (ha : order.applyEvent .confirm now = .ok confirmed) :
    ((view s).Quiet → (view (s.perform Op.exec i (Op.orders
      (.update key { confirmed with paymentReference := some paymentId })))).Quiet) ∧
      Later s.data (s.perform Op.exec i (Op.orders
        (.update key { confirmed with paymentReference := some paymentId }))).data := by
  obtain ⟨hid, hk, -, -⟩ := Order.applyEvent_frame ha
  have hv := view_perform_updateOrder (i := i)
    { confirmed with paymentReference := some paymentId } ho
  exact ⟨fun h => hv ▸ h.rewriteOrder ho hid hk, .of_order (congrArg View.orders hv)
    (congrArg View.audit hv) (congrArg View.sessions hv)⟩

theorem reconcilePayment_ensures (hc : completes i.request = none) {orderId paymentId : String}
    {payment : WebhookPaymentEntity} {now : Int64} :
    (spec ext st).Ensures i (fun _ _ => True) (reconcilePayment orderId paymentId payment now)
      s := by
  refine (Ensures.locked_body (harmless hc) (Set.notMem_empty Lock.orders) trivial (by simp)
    (fun s1 _ _ hH1 => ?_)).mono (fun _ _ _ => trivial)
  refine Ensures.perform_bind (harmless hc) ⟨by simp [Op.need], .inl trivial⟩ trivial hH1
    (fun s2 _ _ _ hH2 _ => ?_)
  have hget : ((app ext st).exec (Op.orders (.get orderId)) s2.data).1 =
    s2.data.orders.get orderId := rfl
  rw [hget, Spec.ensures_okOr_bind (P := spec ext st)]
  cases ho : s2.data.orders.get orderId with
  | none => exact ⟨trivial, hH2⟩
  | some order =>
      dsimp only
      cases order.paymentReference with
      | some existing => exact ⟨trivial, hH2⟩
      | none =>
          dsimp only
          split
          · exact ⟨trivial, hH2⟩
          · rw [Spec.ensures_mapErr_bind (P := spec ext st)]
            cases ha : order.applyEvent .confirm now with
            | error e => exact ⟨trivial, hH2⟩
            | ok confirmed =>
                dsimp only
                rw [Spec.ensures_perform_bind (P := spec ext st)]
                intro s3 hr hi3 _
                have hH3 : ∀ l ∈ insert Lock.orders ∅, s3.held l = some i :=
                  fun l hl => (hr.held l).mpr (hH2 l hl)
                have ho3 : s3.data.orders.get orderId = some order := by
                  rw [(hr.same .orders (hH2 _ (by simp))).1]
                  exact ho
                obtain ⟨hq, hl⟩ := payOrder_keeps (i := i) paymentId ho3 ha
                refine ⟨fun l hl => hH3 l (by simp_all [discipline, Op.need, spec]),
                  ⟨fun hb => hq (hi3 hb), hl⟩, ?_⟩
                rw [Spec.ensures_mapErr_bind (P := spec ext st)]
                split <;> exact ⟨trivial, hH3⟩

theorem handler_holds_other (hc : completes i.request = none) :
    (spec ext st).Holds i (fun _ _ => True) (handler ext st i.request) s := by
  obtain ⟨n, agent, call⟩ := i
  have rest (hp : ∀ o, Request.performs ⟨agent, call⟩ o → Apart o) :
      (spec ext st).Holds ⟨n, agent, call⟩ (fun _ _ => True) (handler ext st ⟨agent, call⟩) s :=
    (Spec.Holds.of_respects (harmless hc)
      ((handler_respects ext st ⟨agent, call⟩).mono (fun H o ho => ⟨ho.2, .inl (hp o ho.1)⟩))
      trivial (by simp)).mono (fun _ _ _ => trivial)
  cases call with
  | createCheckoutSession body now =>
      refine holds_replyTo.mpr ((Ensures.of_respects (harmless hc)
        (createCheckoutSession_respects ?_ ?_ ?_ ?_) trivial (by simp)).mono (fun _ _ _ => trivial))
      · exact ⟨by simp [Op.need], .inl trivial⟩
      · exact ⟨by simp [Op.need], .inl trivial⟩
      · exact ⟨by simp [Op.need], .inl trivial⟩
      · exact fun id cart totals _ => ⟨by simp [Op.need], .inr ⟨_, _, rfl, by simp [CheckoutSession.new]⟩⟩
  | cancelCheckout id => exact holds_replyTo.mpr (cancelCheckout_ensures hc)
  | razorpayWebhook signature body now =>
      exact holds_replyTo.mpr (razorpayWebhook_ensures (harmless hc)
        ⟨by simp [Op.need], .inl trivial⟩ (fun _ _ _ _ _ _ _ => reconcilePayment_ensures hc))
  | completeCheckout id now issuedAt => cases hc
  | _ =>
      refine rest (fun o ho => ?_)
      cases o with
      | sessions o | orders o => cases o <;> first | trivial | simp [Server.Request.performs] at ho
      | _ => first | trivial | simp [Server.Request.performs] at ho

end Others

section Inside

/-- A completion past its checks, and what the books say. -/
structure Inside (i : Name Request) (v : View) (s : State) : Prop where
  both : Both s.held i
  view : view s = v

variable {v : View} {α : Type} {post : Except ApiError α → State → Prop}

theorem Inside.rely (h : Inside i v s) (hr : (spec ext st).Rely i s s') : Inside i v s' where
  both := ⟨h.both.completes, (hr.held _).mpr h.both.orders, (hr.held _).mpr h.both.sessions⟩
  view := by
    have ho := hr.same .orders h.both.orders
    have hs : s'.data.sessions = s.data.sessions := hr.same .sessions h.both.sessions
    have hcr (k : String) : s'.history.filterMap (creationOf k) = s.history.filterMap (creationOf k) :=
      hr.filterMap (fun e he => creationOf_of_free (he.2 _ h.both.orders) k)
    have hch (k : String) : s'.history.filterMap (chargeOf k) = s.history.filterMap (chargeOf k) :=
      hr.filterMap (fun e he => chargeOf_of_free (he.2 _ h.both.orders) k)
    rw [← h.view]
    simp only [Books.view, ho.1, ho.2.1, ho.2.2, hs, hcr, hch]

theorem Inside.perform {o : Op} {f : o.Resp → Handler ApiError α} (h : Inside i v s)
    (hn : ∀ l, o.need l → l = .orders ∨ l = .sessions)
    (rest : ∀ s', s.history <:+ s'.history → Inside i v s' → Later s'.data (o.exec s'.data).2 ∧
      (spec ext st).Ensures i post (f (o.exec s'.data).1) (s'.perform Op.exec i o)) :
    (spec ext st).Ensures i post (Server.perform o >>= f) s := by
  rw [Spec.ensures_perform_bind (P := spec ext st)]
  intro s' hr _ _
  have h' := h.rely hr
  obtain ⟨hl, hrest⟩ := rest s' hr.history h'
  refine ⟨fun l hl => ?_, ⟨fun hb => absurd h'.both (hb i), hl⟩, hrest⟩
  rcases hn l hl with rfl | rfl
  · exact h'.both.orders
  · exact h'.both.sessions

theorem Inside.locked {l : Lock} {o : Op} {f : o.Resp → Handler ApiError α} (h : Inside i v s)
    (hlo : l ≠ .orders) (hls : l ≠ .sessions)
    (hn : ∀ m, o.need m → m = l ∨ m = .orders ∨ m = .sessions)
    (hw : if l = .audit then Owing v i else v.Quiet)
    (rest : ∀ s', s.history <:+ s'.history → Inside i v s' → Later s'.data (o.exec s'.data).2 ∧
      ∀ u, (s'.perform Op.exec i o).history <:+ u.history →
        Inside i (Books.view (s'.perform Op.exec i o)) u →
        (spec ext st).Ensures i post (f (o.exec s'.data).1) u) :
    (spec ext st).Ensures i post (Fallible.locked l (Server.perform o) >>= f) s := by
  rw [Spec.ensures_bind (P := spec ext st), Spec.ensures_locked (P := spec ext st)]
  intro s1 hr1 _
  have h1 := h.rely hr1
  refine ⟨fun _ => h1.view.symm ▸ hw, fun _ => ?_⟩
  have h2 : Inside i v (s1.acquire i l) := by
    refine ⟨⟨h1.both.completes, ?_, ?_⟩, h1.view⟩
    · rw [s1.acquire_held_ne i hlo.symm, h1.both.orders]
    · rw [s1.acquire_held_ne i hls.symm, h1.both.sessions]
  refine ⟨fun hb => absurd h2.both (hb i), ?_⟩
  rw [Spec.ensures_perform (P := spec ext st)]
  intro s3 hr3 _ _
  have h3 := h2.rely hr3
  obtain ⟨hl, hrest⟩ := rest s3 (hr1.history.trans hr3.history) h3
  refine ⟨fun m hm => ?_, ⟨fun hb => absurd h3.both (hb i), hl⟩, fun u hru _ => ?_⟩
  · rcases hn m hm with rfl | rfl | rfl
    · exact (hr3.held _).mpr (s1.acquire_held_self i _)
    · exact h3.both.orders
    · exact h3.both.sessions
  · have h4 : Inside i (Books.view (s3.perform Op.exec i o)) (s3.perform Op.exec i o) :=
      ⟨h3.both, rfl⟩
    have h5 := h4.rely hru
    have h6 : Inside i (Books.view (s3.perform Op.exec i o)) (u.release l) := by
      refine ⟨⟨h5.both.completes, ?_, ?_⟩, h5.view⟩
      · rw [u.release_held_ne hlo.symm, h5.both.orders]
      · rw [u.release_held_ne hls.symm, h5.both.sessions]
    refine ⟨?_, fun hb => absurd h6.both (hb i), hrest (u.release l) hru.history h6⟩
    exact (hru.held l).mpr ((hr3.held _).mpr (s1.acquire_held_self i l))

theorem suffix_perform (h : s.history <:+ s'.history) (o : Op) :
    s.history <:+ (s'.perform Op.exec i o).history :=
  h.trans (List.suffix_cons _ _)

theorem Inside.createOrder {k : String} (order : Order) (h : Inside i v s)
    (ho : v.orders.get (orderKey k) = none) :
    ((Op.orders (.create (orderKey k) order)).exec s.data).1 = .ok () ∧
      Later s.data ((Op.orders (.create (orderKey k) order)).exec s.data).2 ∧
      Inside i { v with
          orders := v.orders.insert (orderKey k) order
          created := Function.update v.created k (i.request.agent :: v.created k) }
        (s.perform Op.exec i (Op.orders (.create (orderKey k) order))) := by
  obtain rfl := h.view
  have hv := view_perform_createOrder (i := i) order ho
  refine ⟨?_, .of_order (congrArg View.orders hv) (congrArg View.audit hv)
    (congrArg View.sessions hv), ⟨h.both, hv⟩⟩
  exact congrArg (fun r => (StoreOp.written s.data.orders r).1)
    (InMemoryStore.create_of_none ho order)

theorem Inside.paySession {k : String} {session : CheckoutSession} (h : Inside i v s)
    (hs : v.sessions.get k = some session)
    (hst : ¬ (session.status ≠ .paid ∧ session.status.isTerminal = true)) :
    ((Op.sessions (.update k { session with status := .paid })).exec s.data).1 = .ok () ∧
      Later s.data ((Op.sessions (.update k { session with status := .paid })).exec s.data).2 ∧
      Inside i { v with sessions := v.sessions.insert k { session with status := .paid } }
        (s.perform Op.exec i (Op.sessions (.update k { session with status := .paid }))) := by
  obtain rfl := h.view
  have hu := InMemoryStore.update_of_some hs { session with status := .paid }
  have hw := congrArg (StoreOp.written s.data.sessions) hu
  refine ⟨congrArg Prod.fst hw, .of_session rfl rfl (congrArg Prod.snd hw) (fun y hy ht => ?_),
    ⟨h.both, ?_⟩⟩
  · obtain rfl := Option.some.inj (hs.symm.trans hy)
    by_contra hne
    exact hst ⟨fun hp => hne hp.symm, ht⟩
  · rw [view_perform_sessions]
    exact congrArg (fun w => ({ Books.view s with sessions := w } : View)) (congrArg Prod.snd hw)

theorem storeOrder_ensures {k : String} {session : CheckoutSession} {now : Int64}
    (h : Inside i v s) (ho : v.orders.get (orderKey k) = none)
    (hs : v.sessions.get k = some session)
    (hst : ¬ (session.status ≠ .paid ∧ session.status.isTerminal = true)) :
    let order := Order.new (orderKey k) k session.totals now
    (spec ext st).Ensures i (fun r u => r = .ok order ∧ s.history <:+ u.history ∧ Inside i { v with
        orders := v.orders.insert (orderKey k) order
        sessions := v.sessions.insert k { session with status := .paid }
        completed := v.completed + 1
        created := Function.update v.created k (i.request.agent :: v.created k) } u)
      (storeOrder k session now) s := by
  intro order
  rw [storeOrder_of_completable now hst]
  refine h.perform (by simp [Op.need]) (fun s1 ho1 h1 => ?_)
  obtain ⟨hr1, hl1, h1'⟩ := h1.createOrder order ho
  refine ⟨hl1, ?_⟩
  rw [hr1, Spec.ensures_mapErr_bind (P := spec ext st)]
  refine h1'.perform (by simp [Op.need]) (fun s2 ho2 h2 => ?_)
  obtain ⟨hr2, hl2, h2'⟩ := h2.paySession hs hst
  refine ⟨hl2, ?_⟩
  rw [hr2, Spec.ensures_mapErr_bind (P := spec ext st)]
  refine h2'.perform (by simp [Op.need]) (fun s3 ho3 h3 => ⟨.of_eq rfl rfl rfl, rfl, ?_, h3.both, ?_⟩)
  · exact (suffix_perform ho1 _).trans ((suffix_perform ho2 _).trans (suffix_perform ho3 _))
  · rw [view_perform_completed, h3.view]

def Seen (i : Name Request) (s : State) : Prop := ∃ e ∈ s.history, e.actor = i

theorem Seen.mono (h : Seen i s) (hs : s.history <:+ s'.history) : Seen i s' := by
  obtain ⟨e, he, ha⟩ := h
  exact ⟨e, hs.subset he, ha⟩

structure Ended (i : Name Request) (k : String) (x : Except ApiError Order) (u : State) : Prop where
  both : Both u.held i
  quiet : (Books.view u).Quiet
  order : ∀ o, x = .ok o → o.id = orderKey k ∧ (u.data.orders.get (orderKey k)).isSome
  seen : Seen i u

theorem View.complete_none (k : String) (order : Order) (paid : CheckoutSession) :
    v.complete k none order paid = { v with
      orders := v.orders.insert (orderKey k) order
      sessions := v.sessions.insert k paid
      completed := v.completed + 1
      created := Function.update v.created k (none :: v.created k) } := by
  simp [View.complete]

theorem placeOrder_none_ensures {k : String} {session : CheckoutSession} {now issuedAt : Int64}
    (h : Inside i v s) (ha : i.request.agent = none) (hv : v.Quiet)
    (ho : v.orders.get (orderKey k) = none) (hs : v.sessions.get k = some session)
    (hst : ¬ (session.status ≠ .paid ∧ session.status.isTerminal = true)) (hseen : Seen i s) :
    (spec ext st).Ensures i (Ended i k) (placeOrder none k session now issuedAt) s := by
  rw [placeOrder_none]
  refine (storeOrder_ensures h ho hs hst).mono (fun r u => ?_)
  rintro ⟨rfl, hsuf, hu⟩
  rw [ha, ← View.complete_none] at hu
  refine ⟨hu.both, ?_, fun o hok => ?_, hseen.mono hsuf⟩
  · rw [hu.view]
    exact (hv.complete ho none rfl rfl rfl).quiet_of_none
  · cases hok
    have horders : u.data.orders = _ := congrArg View.orders hu.view
    simp [horders, View.complete, Order.new]

theorem issueReceipt_ensures {k a : String} {order : Order} {amount : Amount} {issuedAt : Int64}
    (h : Inside i v s) (hk : completes i.request = some k) (hid : order.id = orderKey k)
    (hv : v.Owed k (some a) amount) (ho : (v.orders.get (orderKey k)).isSome) (hseen : Seen i s) :
    (spec ext st).Ensures i (Ended i k)
      (issueReceipt a order amount issuedAt >>= fun _ => pure order) s := by
  rw [issueReceipt, bind_assoc]
  refine h.locked (by simp) (by simp) (by simp [Op.need]) ⟨k, a, amount, hk, hv⟩
    (fun s1 ho1 h1 => ⟨?_, fun u hu h2 => ?_⟩)
  · have haudit : s1.data.audit = v.audit := congrArg View.audit h1.view
    exact .of_receipt (k := k) rfl rfl rfl (by rw [hid]) (by rw [haudit, hv.unreceipted])
  · have hview : Books.view u = { v with audit :=
        (v.audit.push ⟨receiptId (orderKey k), a, orderKey k, amount, issuedAt⟩).2 } := by
      rw [h2.view, view_perform_pushReceipt, h1.view, hid]
    refine ⟨h2.both, hview ▸ hv.push issuedAt, fun o hok => ?_, ?_⟩
    · cases hok
      have horders : u.data.orders = v.orders := congrArg View.orders hview
      exact ⟨hid, horders ▸ ho⟩
    · exact hseen.mono ((suffix_perform ho1 _).trans hu)

theorem placeOrder_some_ensures {k a : String} {session : CheckoutSession} {now issuedAt : Int64}
    (h : Inside i v s) (hk : completes i.request = some k) (ha : i.request.agent = some a)
    (hv : v.Quiet) (ho : v.orders.get (orderKey k) = none) (hs : v.sessions.get k = some session)
    (hst : ¬ (session.status ≠ .paid ∧ session.status.isTerminal = true)) (hseen : Seen i s) :
    (spec ext st).Ensures i (Ended i k) (placeOrder (some a) k session now issuedAt) s := by
  rw [placeOrder_some, Server.chargeAgent, bind_assoc]
  refine h.locked (by simp) (by simp) (by simp [Op.need]) hv
    (fun s1 ho1 h1 => ⟨.of_eq rfl rfl rfl, fun u hu h2 => ?_⟩)
  have hresp : (Op.exec (.chargeAgent a session.totals.total) s1.data).1 =
    (s1.data.agents.chargeAgent a session.totals.total).1 := rfl
  rw [hresp, Spec.ensures_mapErr_bind (P := spec ext st)]
  have hsuf : s.history <:+ u.history := (suffix_perform ho1 _).trans hu
  cases hch : (s1.data.agents.chargeAgent a session.totals.total).1 with
  | error message =>
      have hview : Books.view u = v := by rw [h2.view, view_perform_refused hch, h1.view]
      refine ⟨h2.both, by rwa [hview], fun o hok => ?_, hseen.mono hsuf⟩
      cases hok
  | ok charged =>
      have hview := view_perform_charge (i := i) hk hch
      rw [h1.view] at hview
      have h3 := h2
      rw [hview] at h3
      dsimp only
      rw [Spec.ensures_bind (P := spec ext st)]
      refine (storeOrder_ensures h3 ho hs hst).mono (fun r w => ?_)
      rintro ⟨rfl, hsuf', hw⟩
      have hw' : Inside i (v.complete k (some a) (Order.new (orderKey k) k session.totals now)
          { session with status := .paid }) w := by
        rw [ha] at hw
        exact hw
      exact issueReceipt_ensures hw' hk rfl (hv.complete ho (some a) rfl rfl rfl)
        (by simp [View.complete]) (hseen.mono (hsuf.trans hsuf'))

theorem Inside.apart {o : Op} (h : Inside i v s) (ha : Apart o) :
    Inside i v (s.perform Op.exec i o) :=
  ⟨h.both, (view_perform_of_apart ha).trans h.view⟩

theorem Inside.refused {k : String} (h : Inside i v s) (hv : v.Quiet) (hseen : Seen i s)
    (e : ApiError) : Ended i k (.error e) s where
  both := h.both
  quiet := by rwa [h.view]
  order _ ho := by cases ho
  seen := hseen

theorem completion_ensures {agent : Option String} {k : String} {now issuedAt : Int64}
    (h : Inside i v s) (hk : completes i.request = some k) (ha : i.request.agent = agent)
    (hv : v.Quiet) :
    (spec ext st).Ensures i (Ended i k) (do
      match ← Server.perform (.orders (.get (orderKey k))) with
      | some order => return order
      | none =>
          let session ← Fallible.okOr ApiError.notFound (← Server.perform (.sessions (.get k)))
          if session.status ≠ .paid ∧ session.status.isTerminal then
            throw (.conflict "session is not completable")
          placeOrder agent k session now issuedAt) s := by
  refine h.perform (by simp [Op.need]) (fun s1 ho1 h1 => ⟨.refl _, ?_⟩)
  have hseen : Seen i (s1.perform Op.exec i (Op.orders (.get (orderKey k)))) :=
    ⟨_, List.mem_cons_self, rfl⟩
  have horders : s1.data.orders = v.orders := congrArg View.orders h1.view
  have hget : (Op.exec (.orders (.get (orderKey k))) s1.data).1 = v.orders.get (orderKey k) := by
    rw [← horders]
    rfl
  have h2 : Inside i v (s1.perform Op.exec i (Op.orders (.get (orderKey k)))) := h1.apart trivial
  rw [hget]
  cases ho : v.orders.get (orderKey k) with
  | some order =>
      refine ⟨h2.both, h2.view ▸ hv, fun o hok => ?_, hseen⟩
      cases hok
      refine ⟨((hv.settled k).order_id ho).1, ?_⟩
      change (s1.data.orders.get (orderKey k)).isSome
      simp [horders, ho]
  | none =>
      refine h2.perform (by simp [Op.need]) (fun s3 ho3 h3 => ⟨.refl _, ?_⟩)
      have h4 : Inside i v (s3.perform Op.exec i (Op.sessions (.get k))) := h3.apart trivial
      have hseen' : Seen i (s3.perform Op.exec i (Op.sessions (.get k))) :=
        hseen.mono (suffix_perform ho3 _)
      have hget' : (Op.exec (.sessions (.get k)) s3.data).1 = v.sessions.get k :=
        congrArg (fun w : View => w.sessions.get k) h3.view
      rw [hget', Spec.ensures_okOr_bind (P := spec ext st)]
      cases hs : v.sessions.get k with
      | none => exact h4.refused hv hseen' _
      | some session =>
          dsimp only
          split
          · exact h4.refused hv hseen' _
          next hst =>
            cases agent with
            | none => exact placeOrder_none_ensures h4 ha hv ho hs hst hseen'
            | some a => exact placeOrder_some_ensures h4 hk ha hv ho hs hst hseen'

theorem Ended.answered {k : String} {x : Except ApiError Order} (h : Ended i k x s)
    (hu : s.history <:+ s'.history) (ho : s'.data.orders = s.data.orders)
    (ha : s'.data.audit = s.data.audit) : Answered i k x s' where
  order o hok := ⟨(h.order o hok).1, by rw [ho]; exact (h.order o hok).2⟩
  receipt := by
    refine ⟨s.history, hu, h.seen, fun hc => ?_⟩
    rw [ha]
    exact ((h.quiet.settled k).receipt_of_charged hc).2

theorem Ended.release {k : String} {x : Except ApiError Order} {u : State} (h : Ended i k x s)
    (hr : (spec ext st).Rely i s s') :
    s'.held .sessions = some i ∧ (spec ext st).inv (s'.release Lock.sessions) ∧
      ((spec ext st).Rely i (s'.release Lock.sessions) u → (spec ext st).inv u →
        u.held .orders = some i ∧ (spec ext st).inv (u.release Lock.orders) ∧
          Answered i k x (u.release Lock.orders)) := by
  have h' : Inside i (Books.view s) s' := Inside.rely ⟨h.both, rfl⟩ hr
  refine ⟨h'.both.sessions, fun _ => ?_, fun hu hi => ?_⟩
  · change (Books.view s').Quiet
    rw [h'.view]
    exact h.quiet
  · have hne : Lock.orders ≠ .sessions := by simp
    have ho' : (s'.release Lock.sessions).held .orders = some i := by
      rw [s'.release_held_ne hne, h'.both.orders]
    have ho : u.held .orders = some i := (hu.held _).mpr ho'
    have hs : u.held .sessions ≠ some i := fun hs => by
      simpa using (hu.held _).mp hs
    refine ⟨ho, fun _ => hi (fun j hj => ?_), ?_⟩
    · obtain rfl := Option.some.inj (ho.symm.trans hj.orders)
      exact hs hj.sessions
    · have hsuf : s'.history <:+ u.history := hu.history
      have hsame := hr.same .orders h.both.orders
      have hsame' := hu.same .orders ho'
      exact h.answered (hr.history.trans hsuf)
        (hsame'.1.trans hsame.1) (hsame'.2.1.trans hsame.2.1)

theorem completeCheckout_ensures {agent : Option String} {k : String} {now issuedAt : Int64}
    (hk : completes i.request = some k) (ha : i.request.agent = agent) (hnew : s.Newcomer i) :
    (spec ext st).Ensures i (fun x u => Answered i k x u)
      (completeCheckout agent k now issuedAt) s := by
  have hc : (completes i.request).isSome := by simp [hk]
  have hne : Lock.sessions ≠ .orders := by simp
  rw [completeCheckout, Spec.ensures_locked (P := spec ext st)]
  intro s1 hr1 hi1
  have hno (l : Lock) : s1.held l ≠ some i := fun h => hnew.held l ((hr1.held l).mp h)
  refine ⟨fun hb => absurd hb.orders (hno _), fun hf1 => ⟨fun hb => ?_, ?_⟩⟩
  · exact hi1 (not_both_acquire hf1 hb)
  rw [Spec.ensures_locked (P := spec ext st)]
  intro s2 hr2 hi2
  have hno2 : s2.held .sessions ≠ some i := fun h => hno .sessions (by
    rw [← s1.acquire_held_ne i hne]
    exact (hr2.held _).mp h)
  refine ⟨fun hb => absurd hb.sessions hno2, fun hf2 => ?_⟩
  have hq : (Books.view s2).Quiet := hi2 (fun j hj => by cases hf2.symm.trans hj.sessions)
  have hin : Inside i (Books.view s2) (s2.acquire i Lock.sessions) := by
    refine ⟨⟨hc, ?_, s2.acquire_held_self i _⟩, rfl⟩
    rw [s2.acquire_held_ne i hne.symm]
    exact (hr2.held _).mpr (s1.acquire_held_self i _)
  refine ⟨fun hb => absurd hin.both (hb i), ?_⟩
  exact (completion_ensures hin hk ha hq).mono (fun x u hend u' hru _ =>
    ⟨(hend.release (u := u') hru).1, (hend.release (u := u') hru).2.1,
      fun w hrw hiw => (hend.release hru).2.2 hrw hiw⟩)

end Inside

theorem handler_holds (hnew : s.Newcomer i) :
    (spec ext st).Holds i ((spec ext st).post i) (handler ext st i.request) s := by
  cases hc : completes i.request with
  | none =>
      exact (handler_holds_other hc).mono (fun r u _ k x hk _ => by cases hc.symm.trans hk)
  | some k =>
      obtain ⟨n, agent, call⟩ := i
      cases call with
      | completeCheckout id now issuedAt =>
          obtain rfl : id = k := Option.some.inj hc
          refine holds_replyTo.mpr ((completeCheckout_ensures hc rfl hnew).mono
            (fun x u hx k' x' hk' hxx => ?_))
          obtain rfl : id = k' := Option.some.inj hk'
          cases hxx
          exact hx
      | _ => cases hc

/-- No completion is dropped where it waits to issue its receipt. -/
def ReceiptKept (c : Configuration) : Action Request → Bool
  | .drop n =>
      match c.procs[n]? with
      | some ⟨_, some (.lock l _)⟩ => decide (l ≠ .audit)
      | _ => true
  | _ => true

theorem admits : (spec ext st).Admits (fun c a => ReceiptKept c a = true) where
  spawn c q _ _ hnew := handler_holds hnew
  step _ _ _ _ _ _ _ _ := trivial
  drop c n q l k ha hp _ := by
    simp only [ReceiptKept, hp, decide_eq_true_eq] at ha
    exact ha
  stable n r s s' hr h k x hk hx := (h k x hk hx).rely hr

theorem quiet_start (crypto : Crypto) : (view (.start (Data.new crypto))).Quiet where
  settled k := .inl
    { order := rfl
      unpaid := fun x hx => by cases hx
      created := rfl
      charged := rfl
      receipts := rfl }
  counted := rfl

theorem sound {A : Configuration → Action Request → Prop} {c : Configuration}
    (hA : ∀ c a, A c a → ReceiptKept c a = true)
    (h : (app ext st).Runs A (.start (Data.new ext.crypto)) c) : (spec ext st).Sound c :=
  Spec.Sound.runs admits (Spec.sound_start (fun _ => quiet_start ext.crypto)) (h.mono hA)

end AiterCommerce.Guarantees.Completion
