import AiterCommerce.Concurrent.Alone
import AiterCommerce.Concurrent.Undo
import AiterCommerce.Guarantees.Books

namespace AiterCommerce.Guarantees.Rollback

open AiterCommerce.Core Concurrent Server Books
open Discipline (Undoes Guarded guarded_true)

/-- Everything is as it was, but for the next id. -/
def SameBut (d d' : Data) : Prop := ∃ n, d' = { d with nextId := n }

theorem SameBut.refl (d : Data) : SameBut d d := ⟨d.nextId, rfl⟩

theorem SameBut.trans {a b c : Data} (h : SameBut a b) (h' : SameBut b c) : SameBut a c := by
  obtain ⟨n, rfl⟩ := h
  obtain ⟨m, rfl⟩ := h'
  exact ⟨m, rfl⟩

def Charged : Happening → Prop
  | ⟨_, .chargeAgent _ _, .ok (), _⟩ => True
  | _ => False

def Undone (e : Happening) : Prop := SameBut e.before (e.op.exec e.before).2 ∧ ¬ Charged e

def IsError {ε α : Type} (r : Except ε α) : Prop := ∃ e, r = .error e

def Failed : Reply → Prop
  | .cart r => IsError r
  | .session r => IsError r
  | .order r => IsError r
  | .consent r => IsError r
  | .debit r => IsError r
  | .paymentLink r => IsError r
  | .webhook r => IsError r
  | .registered => False

/-- A task that is answered with an error has left no trace. -/
def post (i : Name Request) (r : Reply) (s : State) : Prop := Failed r → Clean Undone i s

variable {ext : Platform} {st : AppState} {i : Name Request} {c : Prop} {H : Set Lock}
  {ε α β : Type}

variable (ext st) in
abbrev Quiet (i : Name Request) (H : Set Lock) (m : Handler ε α) : Prop :=
  (discipline ext st).Undoes post Undone i True H (fun _ => True) (fun _ => True) (fun _ => True) m

variable (ext st) in
abbrev Tidy (i : Name Request) (H : Set Lock) (m : Handler ε α) : Prop :=
  (discipline ext st).Undoes post Undone i True H (fun _ => True) (fun _ => True) IsError m

variable (ext st) in
abbrev Sure (i : Name Request) (H : Set Lock) (m : Handler ε α) : Prop :=
  (discipline ext st).Undoes post Undone i False H (fun _ => True) (fun _ => True) IsError m

section Rules

theorem not_isError_ok (a : α) : ¬ IsError (.ok a : Except ε α) := by
  rintro ⟨e, he⟩
  cases he

theorem Sure.pure (a : α) : Sure ext st i H (pure a : Handler ε α) :=
  Undoes.pure (fun h => not_isError_ok a h)

theorem Sure.tidy {m : Handler ε α} (h : Sure ext st i H m) : Tidy ext st i H m :=
  Undoes.of_false h

theorem Sure.bind {m : Handler ε α} {f : α → Handler ε β} (hm : Sure ext st i H m)
    (hf : ∀ a, Sure ext st i H (f a)) : Sure ext st i H (m >>= f) :=
  Undoes.bind hm (fun e _ => ⟨e, rfl⟩) (fun _ h => h) (fun a => .of_false (hf a))

theorem Sure.perform {o : Op} (hn : ∀ l, o.need l → l ∈ H) :
    Sure ext st i H (perform o : Handler ε o.Resp) :=
  Undoes.perform guarded_true hn (fun _ _ => trivial) (fun _ _ h => (not_isError_ok _ h).elim)

theorem Sure.locked {l : Lock} {m : Handler ε α} (hl : l ∉ H) (hm : Sure ext st i (insert l H) m) :
    Sure ext st i H (Fallible.locked l m) :=
  Undoes.locked guarded_true guarded_true hl hm

theorem Quiet.then {m : Handler ε α} {f : α → Handler ε β} (hm : Quiet ext st i H m)
    (hf : ∀ a, Tidy ext st i H (f a)) : Tidy ext st i H (m >>= f) :=
  Undoes.bind hm (fun _ _ => trivial) (fun _ h => h) hf

theorem Quiet.tidy {m : Handler ε α} (h : Quiet ext st i H m) : Tidy ext st i H m :=
  fun s hc hK hH => (h s hc hK hH).mono (fun _ _ hu => ⟨fun _ => hu.1 trivial, hu.2⟩)

theorem Tidy.then_sure {m : Handler ε α} {f : α → Handler ε β} (hm : Tidy ext st i H m)
    (hf : ∀ a, Sure ext st i H (f a)) : Tidy ext st i H (m >>= f) :=
  Undoes.bind hm (fun e _ => ⟨e, rfl⟩) (fun _ h => h) (fun a => .of_false (hf a))

theorem isError_mapError {ε' : Type} {f : ε' → ε} {r : Except ε' α} (h : IsError (r.mapError f)) :
    IsError r := by
  cases r with
  | ok a => exact (not_isError_ok a h).elim
  | error e => exact ⟨e, rfl⟩

theorem Tidy.adaptErr {ε' : Type} (f : ε' → ε) {m : Handler ε' α} (hm : Tidy ext st i H m) :
    Tidy ext st i H (Fallible.adaptErr f m) :=
  Undoes.adaptErr f (fun s hc hK hH =>
    (hm s hc hK hH).mono (fun _ _ hu => ⟨fun h => hu.1 (isError_mapError h), hu.2⟩))

theorem Quiet.mapErr {ε' : Type} (f : ε' → ε) (x : Except ε' α) :
    Quiet ext st i H (Fallible.mapErr f x) := Undoes.mapErr f (fun _ => trivial)

theorem Quiet.okOr (e : ε) (x : Option α) : Quiet ext st i H (Fallible.okOr e x) :=
  Undoes.okOr e (fun _ => trivial)

theorem Tidy.throw (e : ε) : Tidy ext st i H (throw e : Handler ε α) :=
  Undoes.throw (fun _ => trivial)

theorem Tidy.pure (a : α) : Tidy ext st i H (pure a : Handler ε α) :=
  Undoes.pure (fun _ => trivial)

theorem Quiet.perform {o : Op} (hn : ∀ l, o.need l → l ∈ H)
    (hU : ∀ d, Undone ⟨i, o, (o.exec d).1, d⟩) : Quiet ext st i H (perform o : Handler ε o.Resp) :=
  Undoes.perform guarded_true hn (fun _ _ => trivial) (fun d _ _ => ⟨trivial, hU d⟩)

theorem Quiet.locked_perform {l : Lock} {o : Op} (hl : l ∉ H) (hn : ∀ m, o.need m → m ∈ insert l H)
    (hU : ∀ d, Undone ⟨i, o, (o.exec d).1, d⟩) :
    Quiet ext st i H (Fallible.locked l (Server.perform o) : Handler ε o.Resp) :=
  Undoes.locked guarded_true guarded_true hl (Quiet.perform hn hU)

theorem Tidy.locked {l : Lock} {m : Handler ε α} (hl : l ∉ H)
    (hm : Tidy ext st i (insert l H) m) : Tidy ext st i H (Fallible.locked l m) :=
  Undoes.locked guarded_true guarded_true hl hm

theorem undone_of_same {o : Op} {d : Data} (h : (o.exec d).2 = d)
    (hc : ¬ Charged ⟨i, o, (o.exec d).1, d⟩) : Undone ⟨i, o, (o.exec d).1, d⟩ :=
  ⟨⟨d.nextId, h⟩, hc⟩

theorem genId_quiet (kind : String) : Quiet ext st i H (genId kind : Handler ε String) := by
  refine Undoes.bind (Quiet.perform (by simp [Op.need]) (fun d => ⟨⟨d.nextId + 1, rfl⟩, id⟩))
    (fun _ _ => trivial) (fun _ h => h) (fun _ => .pure (fun _ => trivial))

theorem written_refused {V : Type} {store : InMemoryStore String V}
    {x : Except StoreError (InMemoryStore String V)}
    (h : ∀ u, (StoreOp.written store x).1 ≠ .ok u) : (StoreOp.written store x).2 = store := by
  cases x with
  | ok store' => exact absurd rfl (h ())
  | error e => rfl

def Refused : (o : Op) → o.Resp → Prop
  | .carts (.create _ _), r | .carts (.update _ _), r | .sessions (.create _ _), r
  | .sessions (.update _ _), r | .orders (.create _ _), r | .orders (.update _ _), r
  | .consents (.create _ _), r | .consents (.update _ _), r | .chargeAgent _ _, r =>
      ∀ u, r ≠ .ok u
  | _, _ => False

theorem undone_of_refused {o : Op} {d : Data} (h : Refused o (o.exec d).1) :
    Undone ⟨i, o, (o.exec d).1, d⟩ := by
  cases o with
  | carts o | sessions o | orders o | consents o =>
      cases o with
      | get key => exact h.elim
      | create key x | update key x =>
          refine undone_of_same ?_ id
          simp only [Op.exec, StoreOp.exec]
          rw [written_refused h]
  | chargeAgent a amount =>
      obtain ⟨e, he⟩ : ∃ e, (d.agents.chargeAgent a amount).1 = .error e := by
        cases hr : (d.agents.chargeAgent a amount).1 with
        | ok u => exact absurd hr (h u)
        | error e => exact ⟨e, rfl⟩
      refine undone_of_same ?_ ?_
      · simp only [Op.exec, AgentRegistry.chargeAgent_snd_of_error he]
      · simp only [Op.exec, he]
        exact id
  | _ => exact h.elim

theorem perform_undoes {o : Op} {K L : Data → Prop} {C : Except ε o.Resp → Prop}
    (hG : (discipline ext st).Guarded H K) (hn : ∀ l, o.need l → l ∈ H)
    (hL : ∀ d, K d → L (o.exec d).2)
    (hC : ∀ d, K d → C (.ok (o.exec d).1) → c ∧ Undone ⟨i, o, (o.exec d).1, d⟩) :
    (discipline ext st).Undoes post Undone i c H K L C (Server.perform o : Handler ε o.Resp) :=
  Undoes.perform hG hn hL hC

theorem refusable {o : Op} {C : Except ε o.Resp → Prop} (hn : ∀ l, o.need l → l ∈ H)
    (hC : ∀ r, C (.ok r) → Refused o r) :
    (discipline ext st).Undoes post Undone i True H (fun _ => True) (fun _ => True) C
      (Server.perform o : Handler ε o.Resp) :=
  Undoes.perform guarded_true hn (fun _ _ => trivial)
    (fun _ _ h => ⟨trivial, undone_of_refused (hC _ h)⟩)

theorem refusable_locked {l : Lock} {o : Op} {C : Except ε o.Resp → Prop} (hl : l ∉ H)
    (hn : ∀ m, o.need m → m ∈ insert l H) (hC : ∀ r, C (.ok r) → Refused o r) :
    (discipline ext st).Undoes post Undone i True H (fun _ => True) (fun _ => True) C
      (Fallible.locked l (Server.perform o) : Handler ε o.Resp) :=
  Undoes.locked guarded_true guarded_true hl (refusable hn hC)

end Rules

section Handlers

theorem createCart_tidy {body : CreateCartRequest} : Tidy ext st i ∅ (createCart st body) := by
  refine (Quiet.mapErr _ _).then (fun _ => (genId_quiet _).then (fun id => ?_))
  exact Undoes.attempt (refusable_locked (by simp) (by simp [Op.need])
    (fun r h u hu => h u (congrArg Except.ok hu))) (fun _ h => h) (fun _ => Sure.pure _)

theorem getCart_tidy {id : String} : Tidy ext st i ∅ (getCart st id) := by
  refine (Quiet.locked_perform (by simp) (by simp [Op.need]) (fun _ => ?_)).then (fun _ => ?_)
  · exact undone_of_same rfl not_false
  refine (Quiet.okOr _ _).then (fun cart => ?_)
  refine (Quiet.locked_perform (by simp) (by simp [Op.need]) (fun _ => ?_)).then (fun _ => .pure _)
  exact undone_of_same rfl not_false

theorem updateCart_tidy {id : String} {items : List LineItem} :
    Tidy ext st i ∅ (updateCart st id items) := by
  have hflag (d : Data) : Undone ⟨i, .cartCancelled id, ((Op.cartCancelled id).exec d).1, d⟩ :=
    undone_of_same rfl not_false
  refine Tidy.locked (by simp) ((Quiet.perform (by simp [Op.need]) (fun _ => ?_)).then (fun _ => ?_))
  · exact undone_of_same rfl not_false
  refine (Quiet.okOr _ _).then (fun cart => ?_)
  refine (Quiet.locked_perform (by simp) (by simp [Op.need]) hflag).then (fun cancelled => ?_)
  cases cancelled with
  | true => exact .throw _
  | false =>
      refine (Quiet.mapErr _ _).then (fun _ => ?_)
      refine Undoes.attempt (refusable (by simp [Op.need])
        (fun r h u hu => h u (congrArg Except.ok hu))) (fun _ h => h) (fun _ => ?_)
      exact Sure.bind (Sure.locked (by simp) (Sure.perform (by simp [Op.need])))
        (fun _ => Sure.pure _)

theorem cancelCart_tidy {id : String} : Tidy ext st i ∅ (cancelCart st id) := by
  refine (Quiet.locked_perform (by simp) (by simp [Op.need]) (fun _ => ?_)).then (fun _ => ?_)
  · exact undone_of_same rfl not_false
  refine (Quiet.okOr _ _).then (fun cart => Sure.tidy ?_)
  exact Sure.bind (Sure.locked (by simp) (Sure.perform (by simp [Op.need])))
    (fun _ => Sure.pure _)

theorem createCheckoutSession_tidy {body : CreateSessionRequest} {now : Int64} :
    Tidy ext st i ∅ (createCheckoutSession st body now) := by
  refine (Quiet.locked_perform (by simp) (by simp [Op.need]) (fun _ => ?_)).then (fun _ => ?_)
  · exact undone_of_same rfl not_false
  refine (Quiet.okOr _ _).then (fun cart => ?_)
  refine (Quiet.locked_perform (by simp) (by simp [Op.need]) (fun _ => ?_)).then
    (fun cancelled => ?_)
  · exact undone_of_same rfl not_false
  cases cancelled with
  | true => exact .throw _
  | false =>
      refine (Quiet.mapErr _ _).then (fun _ => (genId_quiet _).then (fun id => ?_))
      exact Undoes.attempt (refusable_locked (by simp) (by simp [Op.need])
        (fun r h u hu => h u (congrArg Except.ok hu))) (fun _ h => h) (fun _ => Sure.pure _)

theorem cancelCheckout_tidy {id : String} : Tidy ext st i ∅ (cancelCheckout id) := by
  refine Tidy.locked (by simp) ((Quiet.perform (by simp [Op.need]) (fun _ => ?_)).then (fun _ => ?_))
  · exact undone_of_same rfl not_false
  refine (Quiet.okOr _ _).then (fun session => ?_)
  split
  · refine (Quiet.mapErr _ _).then (fun cancelled => ?_)
    exact Undoes.attempt (refusable (by simp [Op.need])
      (fun r h u hu => h u (congrArg Except.ok hu))) (fun _ h => h) (fun _ => Sure.pure _)
  · exact .pure _

theorem createConsent_tidy {body : ConsentRequest} {now : Int64} :
    Tidy ext st i ∅ (createConsent body now) := by
  refine (Quiet.mapErr _ _).then (fun _ => (genId_quiet _).then (fun id => ?_))
  exact Undoes.attempt (refusable_locked (by simp) (by simp [Op.need])
    (fun r h u hu => h u (congrArg Except.ok hu))) (fun _ h => h) (fun _ => Sure.pure _)

theorem debit_tidy {confirm : Bool} {body : DebitRequest} :
    Tidy ext st i ∅ (debit confirm body) := by
  refine (Quiet.mapErr _ _).then (fun _ => Tidy.locked (by simp) ?_)
  refine (Quiet.perform (by simp [Op.need]) (fun _ => ?_)).then (fun _ => ?_)
  · exact undone_of_same rfl not_false
  refine (Quiet.okOr _ _).then (fun consent => (Quiet.mapErr _ _).then (fun remaining => ?_))
  refine Undoes.attempt (refusable (by simp [Op.need])
    (fun r h u hu => h u (congrArg Except.ok hu))) (fun _ h => h) (fun _ => ?_)
  exact Sure.bind (Sure.perform (by simp [Op.need])) (fun _ => Sure.pure _)

theorem reconcilePayment_tidy {orderId paymentId : String} {payment : WebhookPaymentEntity}
    {now : Int64} : Tidy ext st i ∅ (reconcilePayment orderId paymentId payment now) := by
  refine Tidy.locked (by simp) ((Quiet.perform (by simp [Op.need]) (fun _ => ?_)).then (fun _ => ?_))
  · exact undone_of_same rfl not_false
  refine (Quiet.okOr _ _).then (fun order => ?_)
  cases order.paymentReference with
  | some existing => exact .pure _
  | none =>
      dsimp only
      split
      · exact .throw _
      · refine (Quiet.mapErr _ _).then (fun confirmed => ?_)
        exact Undoes.attempt (refusable (by simp [Op.need])
          (fun r h u hu => h u (congrArg Except.ok hu))) (fun _ h => h) (fun _ => Sure.pure _)

theorem processPaymentWebhook_tidy {crypto : Crypto} {reader : EnvelopeReader}
    {client : RazorpayConfig} {body : Bytes} {signature : String} {now : Int64} :
    Tidy ext st i ∅ (processPaymentWebhook crypto reader client body signature now) := by
  refine (Quiet.mapErr _ _).then (fun _ => (Quiet.mapErr _ _).then (fun envelope => ?_))
  dsimp only
  split
  · exact .pure _
  · exact (Quiet.okOr _ _).then (fun orderId => reconcilePayment_tidy)

/-- What the checks of a completion have seen: there is no order yet, and the
session is stored. -/
def Seen (k : String) (d : Data) : Prop :=
  d.orders.get (orderKey k) = none ∧ (d.sessions.get k).isSome

variable (ext st) in
theorem guarded_session {k : String} (hs : Lock.sessions ∈ H) :
    (discipline ext st).Guarded H (fun d => (d.sessions.get k).isSome) := by
  intro d d' hsame hK
  have hsessions : d'.sessions = d.sessions := hsame _ hs
  rwa [hsessions]

variable (ext st) in
theorem guarded_seen {k : String} (ho : Lock.orders ∈ H) (hs : Lock.sessions ∈ H) :
    (discipline ext st).Guarded H (Seen k) := by
  intro d d' hsame hK
  obtain ⟨horders, -⟩ := hsame _ ho
  exact ⟨by rw [horders, hK.1], guarded_session ext st hs d d' hsame hK.2⟩

theorem storeOrder_sure {k : String} {session : CheckoutSession} {now : Int64}
    (ho : Lock.orders ∈ H) (hs : Lock.sessions ∈ H)
    (hst : ¬ (session.status ≠ .paid ∧ session.status.isTerminal = true)) :
    (discipline ext st).Undoes post Undone i False H (Seen k) (fun _ => True) IsError
      (storeOrder k session now) := by
  rw [storeOrder_of_completable now hst]
  refine Undoes.attempt (L := fun d => (d.sessions.get k).isSome) ?_ (fun _ _ => trivial)
    (fun _ => Undoes.attempt (L := fun _ => True) ?_ (fun _ _ => trivial) (fun _ => ?_))
  · refine perform_undoes (o := .orders (.create _ _)) (guarded_seen ext st ho hs) ?_ (fun _ h => h.2)
      (fun d hK h => ?_)
    · rintro l rfl
      exact ho
    · refine absurd ?_ (h ())
      simp [Op.exec, StoreOp.exec, InMemoryStore.create_of_none hK.1, StoreOp.written]
  · refine perform_undoes (o := .sessions (.update _ _)) (guarded_session ext st hs) ?_
      (fun _ _ => trivial) (fun d hK h => ?_)
    · rintro l rfl
      exact hs
    · obtain ⟨old, hold⟩ := Option.isSome_iff_exists.mp hK
      refine absurd ?_ (h ())
      simp [Op.exec, StoreOp.exec, InMemoryStore.update_of_some hold, StoreOp.written]
  · exact Sure.bind (Sure.perform (by simp [Op.need, ho])) (fun _ => Sure.pure _)

theorem placeOrder_tidy {agent : Option String} {k : String} {session : CheckoutSession}
    {now issuedAt : Int64} (ho : Lock.orders ∈ H) (hs : Lock.sessions ∈ H) (ha : Lock.agents ∉ H)
    (hau : Lock.audit ∉ H)
    (hst : ¬ (session.status ≠ .paid ∧ session.status.isTerminal = true)) :
    (discipline ext st).Undoes post Undone i True H (Seen k) (fun _ => True) IsError
      (placeOrder agent k session now issuedAt) := by
  cases agent with
  | none =>
      rw [placeOrder_none]
      exact (storeOrder_sure ho hs hst).of_false
  | some a =>
      have hG : (discipline ext st).Guarded H (Seen k) := guarded_seen ext st ho hs
      rw [placeOrder_some, Server.chargeAgent, bind_assoc]
      refine Undoes.attempt (L := Seen k) ?_ (fun _ _ => trivial) (fun _ => ?_)
      · refine Undoes.locked hG (hG.mono (Set.subset_insert _ _)) ha ?_
        refine perform_undoes (hG.mono (Set.subset_insert _ _)) ?_ (fun _ h => h)
          (fun d _ h => ⟨trivial, undone_of_refused ?_⟩)
        · rintro l (rfl | rfl)
          · exact Set.mem_insert _ _
          · exact Set.mem_insert_of_mem _ ho
        · exact fun u hu => h u (congrArg Except.ok hu)
      · refine Undoes.bind (storeOrder_sure ho hs hst) (fun e _ => ⟨e, rfl⟩) (fun _ h => h)
          (fun order => .of_false ?_)
        rw [issueReceipt, bind_assoc]
        refine Sure.bind (Sure.locked hau (Sure.perform ?_)) (fun _ => Sure.pure _)
        rintro l (rfl | rfl)
        · exact Set.mem_insert _ _
        · exact Set.mem_insert_of_mem _ ho

theorem completeCheckout_tidy {agent : Option String} {k : String} {now issuedAt : Int64} :
    Tidy ext st i ∅ (completeCheckout agent k now issuedAt) := by
  refine Tidy.locked (by simp) (Tidy.locked (by simp) ?_)
  refine Undoes.read guarded_true (by simp [Op.need, discipline]) (fun _ => rfl)
    (fun _ => undone_of_same rfl not_false) (fun found => ?_)
  cases found with
  | some order => exact .weaken (fun _ _ => trivial) (fun _ h => h) (Tidy.pure _)
  | none =>
      refine Undoes.read ?_ (by simp [Op.need, discipline]) (fun _ => rfl)
        (fun _ => undone_of_same rfl not_false) (fun found => ?_)
      · intro d d' hsame hK
        obtain ⟨horders, -⟩ := hsame .orders (by simp)
        refine ⟨trivial, ?_⟩
        rw [← hK.2]
        exact congrArg (fun o => o.get (orderKey k)) horders
      · cases found with
        | none => exact .weaken (fun _ _ => trivial) (fun _ h => h) (Tidy.throw _)
        | some session =>
            simp only [Fallible.okOr, pure_bind]
            split
            · exact .weaken (fun _ _ => trivial) (fun _ h => h) (Tidy.throw _)
            next hst =>
              refine .weaken (fun d h => ?_) (fun _ h => h)
                (placeOrder_tidy (by simp) (by simp) (by simp) (by simp) hst)
              exact ⟨h.1.2, Option.isSome_iff_exists.mpr ⟨session, h.2⟩⟩

theorem orderPaymentLink_tidy {id : String} {answer : Except RazorpayError String} :
    Tidy ext st i ∅ (orderPaymentLink ext st id answer) := by
  refine (Quiet.locked_perform (by simp) (by simp [Op.need]) (fun _ => ?_)).then (fun _ => ?_)
  · exact undone_of_same rfl not_false
  refine (Quiet.okOr _ _).then (fun order => ?_)
  dsimp only
  split
  · exact .throw _
  · refine (Quiet.mapErr _ _).then (fun client => ?_)
    refine Tidy.then_sure (Tidy.adaptErr _ ?_) (fun _ => Sure.pure _)
    refine (Quiet.mapErr _ _).then (fun _ => (Quiet.perform (by simp [Op.need]) ?_).then
      (fun _ => (Quiet.mapErr _ _).tidy))
    exact fun _ => undone_of_same rfl not_false

theorem razorpayWebhook_tidy {signature : Option String} {body : Bytes} {now : Int64} :
    Tidy ext st i ∅ (razorpayWebhook ext st signature body now) := by
  refine (Quiet.okOr _ _).then (fun signature => (Quiet.mapErr _ _).then (fun client => ?_))
  refine Tidy.then_sure (Tidy.adaptErr _ processPaymentWebhook_tidy) (fun outcome => ?_)
  exact Sure.bind (Sure.perform (by simp [Op.need])) (fun _ => Sure.pure _)

theorem replyTo_holds {f : Except ε α → Reply} {m : Handler ε α} {s : State} (hnew : s.Newcomer i)
    (hf : ∀ r, Failed (f r) → IsError r) (hm : Tidy ext st i ∅ m) :
    ((discipline ext st).spec post).Holds i (post i) (replyTo f m) s := by
  have hclean : Clean Undone i s := fun e he hi => absurd hi (hnew.history e he)
  exact holds_replyTo.mpr ((hm s (fun _ => hclean) trivial (by simp)).mono
    (fun r u hu hr => hu.1 (hf r hr)))

theorem handler_holds {s : State} (hnew : s.Newcomer i) :
    ((discipline ext st).spec post).Holds i (post i) (handler ext st i.request) s := by
  obtain ⟨n, agent, call⟩ := i
  cases call with
  | createCart body => exact replyTo_holds hnew (fun _ h => h) createCart_tidy
  | getCart id => exact replyTo_holds hnew (fun _ h => h) getCart_tidy
  | updateCart id items => exact replyTo_holds hnew (fun _ h => h) updateCart_tidy
  | cancelCart id => exact replyTo_holds hnew (fun _ h => h) cancelCart_tidy
  | createCheckoutSession body now =>
      exact replyTo_holds hnew (fun _ h => h) createCheckoutSession_tidy
  | completeCheckout id now issuedAt =>
      exact replyTo_holds hnew (fun _ h => h) completeCheckout_tidy
  | cancelCheckout id => exact replyTo_holds hnew (fun _ h => h) cancelCheckout_tidy
  | createConsent body now => exact replyTo_holds hnew (fun _ h => h) createConsent_tidy
  | debit confirm body => exact replyTo_holds hnew (fun _ h => h) debit_tidy
  | orderPaymentLink id answer => exact replyTo_holds hnew (fun _ h => h) orderPaymentLink_tidy
  | razorpayWebhook signature body now =>
      exact replyTo_holds hnew (fun _ h => h) razorpayWebhook_tidy
  | registerAgent identity spendLimit =>
      intro s1 _ _
      refine ⟨trivial, fun _ => ⟨trivial, fun s2 hr2 _ _ => ?_⟩⟩
      have hheld : s2.held .agents = some ⟨n, ⟨agent, .registerAgent identity spendLimit⟩⟩ :=
        (hr2.held _).mpr (s1.acquire_held_self _ _)
      refine ⟨?_, ⟨trivial, trivial⟩, fun s3 hr3 _ => ⟨(hr3.held _).mpr hheld, trivial, fun h => h.elim⟩⟩
      rintro l rfl
      exact hheld

end Handlers

theorem admits : ((discipline ext st).spec post).Admits (fun _ _ => True) where
  spawn _ _ _ _ hnew := handler_holds hnew
  step _ _ _ _ _ _ _ _ := trivial
  drop _ _ _ _ _ _ _ _ := trivial
  stable _ _ _ _ hr h hf := Discipline.clean_rely (h hf) hr

/-- In any run, from any state of the data, whatever the other requests do
meanwhile: a request that is answered with an error has charged nobody, and each
of its steps left everything but the next id as it was. Served without others in
between, it leaves everything but the next id as it found it, and a delivery of
the payment gateway leaves that too. -/
theorem failure_leaves_no_trace (ext : Platform) (st : AppState) :
    (∀ d c, (app ext st).Runs (fun _ _ => True) (.start d) c → ∀ n q r, c.returned n = some (q, r) →
      Failed r → ∀ e ∈ c.shared.history, e.actor = ⟨n, q⟩ → Undone e) ∧
    (∀ q d, Failed ((handler ext st q).run Op.exec d).1 →
      SameBut d ((handler ext st q).run Op.exec d).2) ∧
    ∀ client body signature now d,
      let result := (processPaymentWebhook ext.crypto ext.readEnvelope client body signature
        now).run Op.exec d
      IsError result.1 → result.2 = d := by
  have htrace : ∀ d c, (app ext st).Runs (fun _ _ => True) (.start d) c → ∀ n q r,
      c.returned n = some (q, r) → Failed r → ∀ e ∈ c.shared.history, e.actor = ⟨n, q⟩ →
        Undone e := by
    intro d c h n q r hret hf
    have hc := Spec.Sound.runs admits (Spec.sound_start trivial) h
    exact hc.returned hret hf
  refine ⟨htrace, fun q d hf => ?_, fun _ _ _ _ _ ⟨_, h⟩ => processPaymentWebhook_run_error h⟩
  have hserved : ∃ c, (app ext st).Runs (fun _ _ => True) (.start d) c ∧
      Alone (app ext st) 0 q (handler ext st q) (.start d) c :=
    System.runs_served (fun _ _ => trivial) (handler_respects ext st q) (fun _ => rfl)
  obtain ⟨c, hruns, hret, hdata, news, hhist, hown, hleads⟩ := hserved
  have hundone (e : Happening) (he : e ∈ news) : Undone e := by
    refine htrace d c hruns _ q _ hret hf e ?_ (hown e he)
    rw [hhist]
    exact List.mem_append_left _ he
  have hsame := hleads.related SameBut.refl SameBut.trans (fun e he => (hundone e he).1)
  rwa [hdata] at hsame

section Example

/-- An agent with six dollars to spend completes a session of ten. -/
def overLimit : List (Action Request) :=
  System.enter 0 ⟨none, .registerAgent ⟨"agent-2", ⟨[]⟩⟩ ⟨600, .USD⟩⟩ 3 ++
  System.enter 1 ⟨some "agent-2", .createCart ⟨none, [⟨"p-1", 2⟩]⟩⟩ 4 ++
  System.enter 2 ⟨some "agent-2", .createCheckoutSession ⟨"cart-0", none⟩ 0⟩ 10

def refusedCompletion : Request := ⟨some "agent-2", .completeCheckout "cs-1" 0 0⟩

theorem failure_leaves_no_trace_refused : ∃ c : Configuration, ∃ r,
    c.returned 3 = some (refusedCompletion, r) ∧ Failed r ∧
      ∀ e ∈ c.shared.history, e.actor = ⟨3, refusedCompletion⟩ → Undone e := by
  have hplay : (((app .bare .shop).play (fun _ _ => True) (.start (Data.new Platform.bare.crypto))
      (overLimit ++ System.enter 3 refusedCompletion 9)).map (fun c =>
        decide (c.returned 3 = some (refusedCompletion, .order (.error (.spendLimit
          "spend limit exceeded for agent agent-2: 0 of 600 minor units spent, order total 1000"))))))
      = some true := by
    decide +kernel
  obtain ⟨c, hc, heq⟩ := Option.map_eq_some_iff.mp hplay
  have hret := of_decide_eq_true heq
  exact ⟨c, _, hret, ⟨_, rfl⟩, (failure_leaves_no_trace .bare .shop).1 _ c (System.play_runs hc) 3 _ _
    hret ⟨_, rfl⟩⟩

end Example

end AiterCommerce.Guarantees.Rollback
