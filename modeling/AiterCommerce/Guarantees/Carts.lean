import AiterCommerce.Guarantees.Money

namespace AiterCommerce.Guarantees.Carts

open AiterCommerce.Core Concurrent Server Money
open Spec (Ensures Harmless)

def writtenBy (id : String) : Event appSignature Data Request → Option (List LineItem)
  | ⟨⟨_, _, .createCart body⟩, .carts (.create key _), .ok (), _⟩ =>
      if key = id then some body.items else none
  | ⟨⟨_, _, .updateCart _ items⟩, .carts (.update key _), .ok (), _⟩ =>
      if key = id then some items else none
  | _ => none

def lastWritten (id : String) (h : Past) : Option (List LineItem) := h.findSome? (writtenBy id)

variable (st : AppState)

/-- Each stored cart holds what it was last written with, and so did each that
an earlier step met. -/
structure Written (s : State) : Prop where
  carts : ∀ id cart, s.data.carts.get id = some cart →
    ∃ items, lastWritten id s.history = some items ∧ Settled st items cart
  past : ∀ e h, e :: h <:+ s.history → ∀ id cart, e.before.carts.get id = some cart →
    ∃ items, lastWritten id h = some items ∧ Settled st items cart

def SameCurrency (a b : Data) : Prop :=
  ∀ id x, a.carts.get id = some x → ∃ y, b.carts.get id = some y ∧ y.currency = x.currency

def Supplied (q : Request) : Op → State → Prop
  | .carts (.create _ cart), _ => ∃ body, q.call = .createCart body ∧ Settled st body.items cart
  | .carts (.update key cart), s => ∃ items, q.call = .updateCart key items ∧
      Settled st items cart ∧ ∃ y, s.data.carts.get key = some y ∧ y.currency = cart.currency
  | _, _ => True

section Step

variable {st} {s : State} {i : Name Request} {o : Op}

theorem SameCurrency.refl (d : Data) : SameCurrency d d := fun _ x hx => ⟨x, hx, rfl⟩

theorem SameCurrency.trans {a b c : Data} (h : SameCurrency a b) (h' : SameCurrency b c) :
    SameCurrency a c := by
  intro id x hx
  obtain ⟨y, hy, hyx⟩ := h id x hx
  obtain ⟨z, hz, hzy⟩ := h' id y hy
  exact ⟨z, hz, hzy.trans hyx⟩

theorem Written.past_perform (h : Written st s) : ∀ e h, e :: h <:+ (s.perform Op.exec i o).history →
    ∀ id cart, e.before.carts.get id = some cart →
      ∃ items, lastWritten id h = some items ∧ Settled st items cart := by
  intro e past hsuf id cart hc
  rcases List.suffix_cons_iff.mp hsuf with heq | hsuf
  · obtain ⟨rfl, rfl⟩ := List.cons.inj heq
    exact h.carts id cart hc
  · exact h.past e past hsuf id cart hc

theorem lastWritten_perform (id : String) : lastWritten id (s.perform Op.exec i o).history =
    (writtenBy id ⟨i, o, (o.exec s.data).1, s.data⟩).or (lastWritten id s.history) := by
  rw [lastWritten, Shared.perform_history, List.findSome?_cons]
  cases writtenBy id ⟨i, o, (o.exec s.data).1, s.data⟩ <;> rfl

theorem writtenBy_of_read (hc : ∀ key x, o ≠ .carts (.create key x))
    (hu : ∀ key x, o ≠ .carts (.update key x)) (id : String) (r : o.Resp) (d : Data) :
    writtenBy id ⟨i, o, r, d⟩ = none := by
  obtain ⟨n, agent, call⟩ := i
  unfold writtenBy
  split
  next heq =>
    obtain ⟨-, rfl, -⟩ := by simpa using heq
    exact absurd rfl (hc _ _)
  next heq =>
    obtain ⟨-, rfl, -⟩ := by simpa using heq
    exact absurd rfl (hu _ _)
  · rfl

theorem carts_of_read (hc : ∀ key x, o ≠ .carts (.create key x))
    (hu : ∀ key x, o ≠ .carts (.update key x)) (d : Data) : (o.exec d).2.carts = d.carts := by
  cases o with
  | carts o =>
      exact StoreOp.exec_of_read (fun key x ho => hc key x (congrArg _ ho))
        (fun key x ho => hu key x (congrArg _ ho)) d.carts
  | _ => rfl

theorem Written.perform_of_read (h : Written st s) (hc : ∀ key x, o ≠ .carts (.create key x))
    (hu : ∀ key x, o ≠ .carts (.update key x)) : Written st (s.perform Op.exec i o) := by
  refine ⟨fun id cart hcart => ?_, h.past_perform⟩
  rw [lastWritten_perform, writtenBy_of_read hc hu, Option.none_or]
  exact h.carts id cart (by rwa [Shared.perform_data, carts_of_read hc hu] at hcart)

theorem Written.perform_create {key : String} {cart : Cart} {body : CreateCartRequest}
    (h : Written st s) (hcall : i.request.call = .createCart body)
    (hs : Settled st body.items cart) :
    Written st (s.perform Op.exec i (.carts (.create key cart))) := by
  obtain ⟨n, agent, call⟩ := i
  obtain rfl : call = .createCart body := hcall
  refine ⟨fun id x hx => ?_, h.past_perform⟩
  rw [lastWritten_perform]
  cases hk : s.data.carts.get key with
  | some old =>
      have hexec : (Op.carts (.create key cart)).exec s.data = (.error .alreadyExists, s.data) := by
        simp only [Op.exec, StoreOp.exec, InMemoryStore.create_of_some hk, StoreOp.written]
      rw [Shared.perform_data, hexec] at hx
      rw [hexec]
      exact h.carts id x hx
  | none =>
      have hexec : (Op.carts (.create key cart)).exec s.data =
          (.ok (), { s.data with carts := s.data.carts.insert key cart }) := by
        simp only [Op.exec, StoreOp.exec, InMemoryStore.create_of_none hk, StoreOp.written]
      rw [Shared.perform_data, hexec, InMemoryStore.get_insert] at hx
      rw [hexec, writtenBy]
      split at hx
      next hid =>
        cases hx
        exact ⟨body.items, by rw [if_pos hid.symm]; rfl, hs⟩
      next hid =>
        rw [if_neg (Ne.symm hid), Option.none_or]
        exact h.carts id x hx

theorem update_exec {key : String} {old : Cart} (hold : s.data.carts.get key = some old)
    (new : Cart) : (Op.carts (.update key new)).exec s.data =
      (.ok (), { s.data with carts := s.data.carts.insert key new }) := by
  simp only [Op.exec, StoreOp.exec, InMemoryStore.update_of_some hold, StoreOp.written]

theorem Written.perform_update {key : String} {cart old : Cart} {items : List LineItem}
    (h : Written st s) (hcall : i.request.call = .updateCart key items)
    (hs : Settled st items cart) (hold : s.data.carts.get key = some old) :
    Written st (s.perform Op.exec i (.carts (.update key cart))) := by
  obtain ⟨n, agent, call⟩ := i
  obtain rfl : call = .updateCart key items := hcall
  refine ⟨fun id x hx => ?_, h.past_perform⟩
  rw [lastWritten_perform, update_exec hold, writtenBy]
  rw [Shared.perform_data, update_exec hold, InMemoryStore.get_insert] at hx
  split at hx
  next hid =>
    cases hx
    exact ⟨items, by rw [if_pos hid.symm]; rfl, hs⟩
  next hid =>
    rw [if_neg (Ne.symm hid), Option.none_or]
    exact h.carts id x hx

theorem Supplied.sameCurrency (hb : Supplied st i.request o s) :
    SameCurrency s.data (o.exec s.data).2 := by
  intro id x hx
  by_cases hc : ∃ key cart, o = .carts (.create key cart)
  · obtain ⟨key, cart, rfl⟩ := hc
    rcases StoreOp.get_exec_of_some (.create key cart) hx with hx | ⟨y, ho, -⟩
    · exact ⟨x, hx, rfl⟩
    · cases ho
  · by_cases hu : ∃ key cart, o = .carts (.update key cart)
    · obtain ⟨key, cart, rfl⟩ := hu
      obtain ⟨items, -, -, y, hy, hcur⟩ := hb
      rw [update_exec hy]
      by_cases hid : id = key
      · subst hid
        obtain rfl := Option.some.inj (hy.symm.trans hx)
        exact ⟨cart, InMemoryStore.get_insert_self _ _ _, hcur.symm⟩
      · exact ⟨x, (InMemoryStore.get_insert_ne _ hid cart).trans hx, rfl⟩
    · rw [carts_of_read (fun key y ho => hc ⟨key, y, ho⟩) (fun key y ho => hu ⟨key, y, ho⟩)]
      exact ⟨x, hx, rfl⟩

theorem Written.perform (h : Written st s) (hb : Supplied st i.request o s) :
    Written st (s.perform Op.exec i o) := by
  by_cases hc : ∃ key cart, o = .carts (.create key cart)
  · obtain ⟨key, cart, rfl⟩ := hc
    obtain ⟨body, hcall, hs⟩ := hb
    exact h.perform_create hcall hs
  · by_cases hu : ∃ key cart, o = .carts (.update key cart)
    · obtain ⟨key, cart, rfl⟩ := hu
      obtain ⟨items, hcall, hs, y, hy, -⟩ := hb
      exact h.perform_update hcall hs hy
    · exact h.perform_of_read (fun key y ho => hc ⟨key, y, ho⟩) (fun key y ho => hu ⟨key, y, ho⟩)

end Step

variable (ext : Platform)

def spec : Spec (app ext st) where
  locks := discipline ext st
  inv := Written st
  evolves := SameCurrency
  evolves_refl := SameCurrency.refl
  evolves_trans := SameCurrency.trans
  drop_inv _ _ _ h _ _ := ⟨h.carts, h.past⟩

def May (q : Request) (K : State → Prop) (H : Set Lock) (o : Op) : Prop :=
  (∀ l, o.need l → l ∈ H) ∧ ∀ s, K s → Supplied st q o s

variable {st ext} {s : State} {i : Name Request} {o : Op}

theorem lockFree : (spec st ext).LockFree := fun _ _ h => ⟨h.carts, h.past⟩

theorem harmless {K : State → Prop} (hK : ∀ s s' : State, SameCurrency s.data s'.data → K s → K s') :
    (spec st ext).Harmless i K (May st i.request K) := by
  refine .of_lasting lockFree (fun s s' hl _ => hK s s' hl) (fun _ _ => trivial)
    (fun H o s hm hi h _ => ?_)
  have hb := hm.2 s h
  exact ⟨hm.1, hi.perform hb, hb.sameCurrency⟩

def anyCart : State → Prop := fun _ => True

theorem harmless_any : (spec st ext).Harmless i anyCart (May st i.request anyCart) :=
  harmless (fun _ _ _ _ => trivial)

def knowsCurrency (id : String) (currency : Currency) : State → Prop :=
  fun s => ∃ y, s.data.carts.get id = some y ∧ y.currency = currency

theorem harmless_knowsCurrency {id : String} {currency : Currency} : (spec st ext).Harmless i
    (knowsCurrency id currency) (May st i.request (knowsCurrency id currency)) := by
  refine harmless ?_
  rintro s s' hl ⟨y, hy, hc⟩
  obtain ⟨z, hz, hzy⟩ := hl id y hy
  exact ⟨z, hz, hzy.trans hc⟩

theorem createCart_holds {body : CreateCartRequest} (hcall : i.request.call = .createCart body) :
    (spec st ext).Ensures i (fun _ _ => True) (createCart st body) s := by
  refine (Ensures.of_respects (H := ∅) harmless_any (createCart_respects ⟨by simp [Op.need], ?_⟩ ?_)
    trivial (by simp)).mono (fun _ _ _ => trivial)
  · exact fun _ _ => trivial
  · exact fun hv id => ⟨by simp [Op.need], fun _ _ => ⟨body, hcall, settled_fillCart hv⟩⟩

theorem updateCart_holds {id : String} {items : List LineItem}
    (hcall : i.request.call = .updateCart id items) :
    (spec st ext).Ensures i (fun _ _ => True) (updateCart st id items) s := by
  refine (Ensures.locked_body harmless_any (Set.notMem_empty Lock.carts) trivial (by simp)
    (fun s1 _ _ hH1 => ?_)).mono (fun _ _ _ => trivial)
  refine Ensures.perform_bind harmless_any ⟨by simp [Op.need], fun _ _ => trivial⟩ trivial hH1
    (fun s2 _ _ _ hH2 _ => ?_)
  rw [show ((app ext st).exec (Op.carts (.get id)) s2.data).1 = s2.data.carts.get id from rfl,
    Spec.ensures_okOr_bind (P := spec st ext)]
  cases hcart : s2.data.carts.get id with
  | none => exact ⟨trivial, hH2⟩
  | some cart =>
      have hknow : knowsCurrency id cart.currency (s2.perform Op.exec i (Op.carts (.get id))) :=
        ⟨cart, hcart, rfl⟩
      refine (Ensures.of_respects harmless_knowsCurrency ?_ hknow hH2).mono
        (fun _ _ h => ⟨trivial, h.2⟩)
      have hflag : May st i.request (knowsCurrency id cart.currency)
          (insert .cancelledCarts (insert .carts ∅)) (.cartCancelled id) :=
        ⟨by simp [Op.need], fun _ _ => trivial⟩
      refine .bind (locked_perform_respects (by simp) hflag) (fun cancelled => ?_)
      cases cancelled with
      | true => exact .throw _
      | false =>
          refine .mapErr_bind _ _ (fun _ hv => .bind (.perform ⟨by simp [Op.need], ?_⟩)
            (fun _ => .bind (.mapErr _ _) (fun _ =>
              .bind (locked_perform_respects (by simp) hflag) (fun _ => .pure _))))
          intro u hu
          refine ⟨items, hcall, settled_fillCart hv, ?_⟩
          rw [fillCart_currency]
          exact hu

theorem handler_holds :
    (spec st ext).Holds i ((spec st ext).post i) (handler ext st i.request) s := by
  obtain ⟨n, agent, call⟩ := i
  have rest (hp : ∀ o, Request.performs ⟨agent, call⟩ o →
      ∀ s, Supplied st ⟨agent, call⟩ o s) :
      (spec st ext).Holds ⟨n, agent, call⟩ (fun _ _ => True) (handler ext st ⟨agent, call⟩) s :=
    (Spec.Holds.of_respects harmless_any ((handler_respects ext st ⟨agent, call⟩).mono
      (fun H o ho => ⟨ho.2, fun s _ => hp o ho.1 s⟩)) trivial (by simp)).mono (fun _ _ _ => trivial)
  cases call with
  | createCart body => exact holds_replyTo.mpr (createCart_holds rfl)
  | updateCart id items => exact holds_replyTo.mpr (updateCart_holds rfl)
  | _ =>
      refine rest (fun o ho s => ?_)
      cases o with
      | carts o => cases o <;> first | trivial | simp [Request.performs] at ho
      | _ => trivial

theorem admits : (spec st ext).Admits (fun _ _ => True) where
  spawn _ _ _ _ _ := handler_holds
  step _ _ _ _ _ _ _ _ := trivial
  drop _ _ _ _ _ _ _ _ := trivial
  stable _ _ _ _ _ h := h

theorem written_start (crypto : Crypto) : Written st (.start (Data.new crypto)) where
  carts _ _ h := by cases h
  past e h hsuf := by cases List.suffix_nil.mp hsuf

/-- A cart holds what the entries say last, and can only be too dear to price. -/
structure Sound (st : AppState) (items : List LineItem) (cart : Cart) : Prop where
  settled : Settled st items cart
  pricing : ∀ e, computeTotals cart st.priceOf noTax = .error e → e = .amount .overflow

theorem sound_of_settled {items : List LineItem} {cart : Cart} (h : Settled st items cart) :
    Sound st items cart := ⟨h, fun _ he => computeTotals_error h.priced he⟩

def Snapshot (st : AppState) (k : String) (cart : Cart) (h : Past) : Prop :=
  ∃ made ∈ h, (∃ x, made.op = .sessions (.create k x)) ∧
    ∃ body now, made.actor.request.call = .createCheckoutSession body now ∧
      ∃ met before items, met :: before <:+ h ∧ met.before.carts.get body.cartId = some cart ∧
        lastWritten body.cartId before = some items ∧ Sound st items cart

/-- All carts are well formed, those of the sessions too. -/
structure WellKept (st : AppState) (s : State) : Prop where
  carts : ∀ id cart, s.data.carts.get id = some cart →
    ∃ items, lastWritten id s.history = some items ∧ Sound st items cart
  sessions : ∀ k x, s.data.sessions.get k = some x → Snapshot st k x.cart s.history

theorem Written.snapshot {k : String} {cart : Cart} (h : Written st s)
    (hd : Drawn k cart s.history) : Snapshot st k cart s.history := by
  obtain ⟨made, hmade, hop, body, now, hcall, met, hmet, hcart, -⟩ := hd
  obtain ⟨later, before, hsplit⟩ := List.append_of_mem hmet
  have hsuf : met :: before <:+ s.history := ⟨later, hsplit.symm⟩
  obtain ⟨items, hitems, hs⟩ := h.past met before hsuf body.cartId cart hcart
  exact ⟨made, hmade, hop, body, now, hcall, met, before, items, hsuf, hcart, hitems,
    sound_of_settled hs⟩

/-- In every reachable state the carts are well formed, hold what they were last
written with, and go on in their currency. -/
theorem carts_wellKept (ext : Platform) (st : AppState) {c : Configuration}
    (h : (app ext st).Runs (fun _ _ => True) (.start (Data.new ext.crypto)) c) :
    WellKept st c.shared ∧ ∀ c', (app ext st).Runs (fun _ _ => True) c c' →
      SameCurrency c.shared.data c'.shared.data := by
  have hc := Spec.Sound.runs admits (Spec.sound_start (P := spec st ext) (written_start _)) h
  have hm := Spec.Sound.runs Money.admits (Spec.sound_start (P := Money.spec ext st) (kept_start _)) h
  refine ⟨⟨fun id cart hcart => ?_, fun k x hx => ?_⟩, fun c' h' => hc.evolves_runs admits h'⟩
  · obtain ⟨items, hitems, hs⟩ := hc.inv.carts id cart hcart
    exact ⟨items, hitems, sound_of_settled hs⟩
  · exact Written.snapshot hc.inv (hm.inv.drawn k x hx)

section Runs

/-- A cart with a product named three times, a session of it, and an update that
takes the product out again. -/
def rewritten : List (Action Request) :=
  System.enter 0 ⟨some demoAgentId, .createCart ⟨none, [⟨"p-1", 2⟩, ⟨"p-1", 0⟩, ⟨"p-1", 3⟩]⟩⟩ 4 ++
  System.enter 1 ⟨some demoAgentId, .createCheckoutSession ⟨"cart-0", none⟩ 0⟩ 10 ++
  System.enter 2 ⟨some demoAgentId, .updateCart "cart-0" [⟨"p-1", 1⟩, ⟨"p-1", 0⟩]⟩ 10

theorem carts_wellKept_rewritten : ∃ c : Configuration,
    c.shared.data.carts.get "cart-0" = some ⟨.USD, []⟩ ∧
    (c.shared.data.sessions.get "cs-1").map CheckoutSession.cart = some ⟨.USD, [⟨"p-1", 3⟩]⟩ ∧
    WellKept .shop c.shared := by
  have hplay : (((app .bare .shop).play (fun _ _ => True)
      (.start (Data.new Platform.bare.crypto)) rewritten).map (fun c => decide (
        c.shared.data.carts.get "cart-0" = some ⟨.USD, []⟩ ∧
        (c.shared.data.sessions.get "cs-1").map CheckoutSession.cart =
          some ⟨.USD, [⟨"p-1", 3⟩]⟩))) = some true := by
    decide +kernel
  obtain ⟨c, hc, heq⟩ := Option.map_eq_some_iff.mp hplay
  obtain ⟨hcart, hsession⟩ := of_decide_eq_true heq
  exact ⟨c, hcart, hsession, (carts_wellKept .bare .shop (System.play_runs hc)).1⟩

end Runs

end AiterCommerce.Guarantees.Carts
