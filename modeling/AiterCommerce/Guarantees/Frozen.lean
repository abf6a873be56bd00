import AiterCommerce.Server.Footprint

namespace AiterCommerce.Guarantees.Frozen

open AiterCommerce.Core Concurrent Server
open Spec (Ensures Harmless)

abbrev Happening := Event appSignature Data Request

def seenOpen (id : String) : Happening → Bool
  | ⟨_, .cartCancelled id', false, _⟩ => id' = id
  | _ => false

def writes (id : String) : Happening → Bool
  | ⟨_, .carts (.update id' _), _, _⟩ => id' = id
  | _ => false

/-- An update of the cart stands between its check of the flag and its write:
it holds the carts, has seen the flag unset and the items pass, and it has not
written yet. -/
def writing (st : AppState) (s : State) (id : String) : Bool :=
  match s.held .carts with
  | none => false
  | some m =>
      match m.request.call with
      | .updateCart id' items =>
          id' = id &&
          (s.data.carts.get id).any (fun cart => (validateCatalogItems st cart.currency items).isOk) &&
          s.history.any (fun e => e.actor = m && seenOpen id e) &&
          !s.history.any (fun e => e.actor = m && writes id e)
      | _ => false

/-- No cart is cancelled while an update of it is about to write. -/
def NoRace (st : AppState) (c : Configuration) : Action Request → Bool
  | .step n =>
      match c.procs[n]? with
      | some ⟨_, some (.op (.cancelCart id) _)⟩ => !writing st c.shared id
      | _ => true
  | _ => true

structure Later (a b : Data) : Prop where
  cancelled : a.cancelledCarts ⊆ b.cancelledCarts
  exist : ∀ id, (a.carts.get id).isSome → (b.carts.get id).isSome
  frozen : ∀ id ∈ a.cancelledCarts, b.carts.get id = a.carts.get id

theorem Later.refl (d : Data) : Later d d :=
  ⟨Finset.Subset.refl _, fun _ h => h, fun _ _ => rfl⟩

theorem Later.trans {a b c : Data} (h : Later a b) (h' : Later b c) : Later a c where
  cancelled := h.cancelled.trans h'.cancelled
  exist id hid := h'.exist id (h.exist id hid)
  frozen id hid := (h'.frozen id (h.cancelled hid)).trans (h.frozen id hid)

theorem Later.of_eq {a b : Data} (hc : b.cancelledCarts = a.cancelledCarts)
    (hd : b.carts = a.carts) : Later a b :=
  ⟨by rw [hc], fun _ h => by rwa [hd], fun _ _ => by rw [hd]⟩

structure Writing (st : AppState) (m : Name Request) (id : String) (s : State) : Prop where
  held : s.held .carts = some m
  items : ∃ cart items, m.request.call = .updateCart id items ∧ s.data.carts.get id = some cart ∧
    validateCatalogItems st cart.currency items = .ok ()
  checked : ∃ e ∈ s.history, e.actor = m ∧ seenOpen id e = true
  unwritten : ∀ e ∈ s.history, e.actor = m → writes id e = false

variable {st : AppState} {s s' : State} {i m : Name Request} {id : String}

theorem Writing.writing_eq_true (h : Writing st m id s) : writing st s id = true := by
  obtain ⟨cart, items, hcall, hcart, hv⟩ := h.items
  obtain ⟨e, he, hm, hopen⟩ := h.checked
  have hno : s.history.any (fun e => e.actor = m && writes id e) = false := by
    rw [List.any_eq_false]
    intro e he
    by_cases hem : e.actor = m
    · simp [hem, h.unwritten e he hem]
    · simp [hem]
  have hyes : s.history.any (fun e => e.actor = m && seenOpen id e) = true :=
    List.any_eq_true.mpr ⟨e, he, by simp [hm, hopen]⟩
  simp [writing, h.held, hcall, hcart, hv, hyes, hno, Except.isOk, Except.toBool]

/-- The flags are settled: no cart an update is about to write is cancelled, and
only open carts were ever written. -/
structure Settled (st : AppState) (s : State) : Prop where
  open_ : ∀ m id, Writing st m id s → id ∉ s.data.cancelledCarts
  exist : ∀ id ∈ s.data.cancelledCarts, (s.data.carts.get id).isSome
  wrote : ∀ e ∈ s.history, ∀ id, writes id e = true → id ∉ e.before.cancelledCarts

theorem Settled.congr (h : Settled st s) (hd : s'.data = s.data) (hh : s'.history = s.history)
    (hheld : ∀ m id, Writing st m id s' → s.held .carts = some m) : Settled st s' where
  open_ m id hm := by
    rw [hd]
    refine h.open_ m id ⟨hheld m id hm, ?_, ?_, ?_⟩
    · rw [← hd]; exact hm.items
    · rw [← hh]; exact hm.checked
    · rw [← hh]; exact hm.unwritten
  exist := by rw [hd]; exact h.exist
  wrote := by rw [hh]; exact h.wrote

theorem Settled.abandon (h : Settled st s) : Settled st (s.abandon i) := by
  refine h.congr rfl rfl (fun m id hm => ?_)
  have hheld := hm.held
  simp only [Shared.abandon] at hheld
  split at hheld
  · cases hheld
  · exact hheld

theorem Settled.release (h : Settled st s) (l : Lock) : Settled st (s.release l) := by
  refine h.congr rfl rfl (fun m id hm => ?_)
  by_cases hl : Lock.carts = l
  · subst hl
    cases (s.release_held_self Lock.carts).symm.trans hm.held
  · exact (s.release_held_ne hl).symm.trans hm.held

theorem Settled.acquire (h : Settled st s) {l : Lock}
    (hi : l = .carts → ∀ id, ¬ Writing st i id (s.acquire i l)) : Settled st (s.acquire i l) := by
  refine h.congr rfl rfl (fun m id hm => ?_)
  by_cases hl : Lock.carts = l
  · subst hl
    have him := (s.acquire_held_self i Lock.carts).symm.trans hm.held
    obtain rfl : i = m := Option.some.inj him
    exact absurd hm (hi rfl id)
  · exact (s.acquire_held_ne i hl).symm.trans hm.held

theorem Writing.of_frame {o : Op} (hc : (o.exec s.data).2.carts = s.data.carts)
    (h : Writing st m id (s.perform Op.exec i o))
    (hnew : i = m → seenOpen id ⟨i, o, (o.exec s.data).1, s.data⟩ = false) : Writing st m id s where
  held := h.held
  items := by
    have hitems := h.items
    rwa [Shared.perform_data, hc] at hitems
  checked := by
    obtain ⟨e, he, hem, hopen⟩ := h.checked
    rcases List.mem_cons.mp he with rfl | he
    · cases (hnew hem).symm.trans hopen
    · exact ⟨e, he, hem, hopen⟩
  unwritten e he hem := h.unwritten e (List.mem_cons_of_mem _ he) hem

/-- A write comes about only where its own task sees the flag unset. -/
theorem Writing.of_perform {o : Op} (hp : i.request.performs o)
    (hn : ∀ l, o.need l → s.held l = some i) (h : Writing st m id (s.perform Op.exec i o)) :
    Writing st m id s ∨ m = i ∧ o = .cartCancelled id ∧ id ∉ s.data.cancelledCarts := by
  by_cases hmi : i = m
  · subst hmi
    obtain ⟨cart, items, hcall, -⟩ := h.items
    simp only [Request.performs, hcall] at hp
    obtain rfl | rfl | ⟨cart, rfl⟩ := hp
    · exact .inl (h.of_frame rfl (fun _ => rfl))
    · by_cases hid : id ∈ s.data.cancelledCarts
      · refine .inl (h.of_frame rfl (fun _ => ?_))
        simp only [Op.exec, hid, decide_true, seenOpen]
      · exact .inr ⟨rfl, rfl, hid⟩
    · have hw := h.unwritten _ List.mem_cons_self rfl
      simp [writes] at hw
  · have hc : (o.exec s.data).2.carts = s.data.carts := by
      cases o with
      | carts o => exact absurd (Option.some.inj ((hn .carts rfl).symm.trans h.held)) hmi
      | _ => rfl
    exact .inl (h.of_frame hc (fun him => absurd him hmi))

theorem Settled.createCart (h : Settled st s) (key : String) (cart : Cart) :
    Later s.data ((Op.carts (.create key cart)).exec s.data).2 := by
  cases hk : s.data.carts.get key with
  | some old =>
      refine .of_eq rfl ?_
      simp only [Op.exec, StoreOp.exec, InMemoryStore.create_of_some hk, StoreOp.written]
  | none =>
      have hcarts : ((Op.carts (.create key cart)).exec s.data).2.carts =
          s.data.carts.insert key cart := by
        simp only [Op.exec, StoreOp.exec, InMemoryStore.create_of_none hk, StoreOp.written]
      refine ⟨Finset.Subset.refl _, fun id hid => ?_, fun id hid => ?_⟩
      · rw [hcarts, InMemoryStore.get_insert]
        split
        · rfl
        · exact hid
      · have hne : id ≠ key := by
          rintro rfl
          simpa [hk] using h.exist id hid
        rw [hcarts, InMemoryStore.get_insert_ne _ hne]

theorem Settled.perform {o : Op} (h : Settled st s) (hp : i.request.performs o)
    (hn : ∀ l, o.need l → s.held l = some i) (hu : ∀ id cart, o ≠ .carts (.update id cart))
    (hc : ∀ id, o ≠ .cancelCart id) :
    Settled st (s.perform Op.exec i o) ∧ Later s.data (s.perform Op.exec i o).data := by
  have hcancelled : (o.exec s.data).2.cancelledCarts = s.data.cancelledCarts := by
    cases o with
    | cancelCart id => exact absurd rfl (hc id)
    | _ => rfl
  have hl : Later s.data (o.exec s.data).2 := by
    cases o with
    | carts o =>
        cases o with
        | get key => exact .of_eq rfl rfl
        | create key cart => exact h.createCart key cart
        | update key cart => exact absurd rfl (hu key cart)
    | cancelCart id => exact absurd rfl (hc id)
    | _ => exact .of_eq rfl rfl
  refine ⟨⟨fun m id hm => ?_, fun id hid => ?_, fun e he id hw => ?_⟩, hl⟩
  · rw [Shared.perform_data, hcancelled]
    rcases hm.of_perform hp hn with hm | ⟨-, -, hid⟩
    · exact h.open_ m id hm
    · exact hid
  · rw [Shared.perform_data, hcancelled] at hid
    exact hl.exist id (h.exist id hid)
  · rcases List.mem_cons.mp he with rfl | he
    · cases o with
      | carts o =>
          cases o with
          | update key cart => exact absurd rfl (hu key cart)
          | _ => cases hw
      | _ => cases hw
    · exact h.wrote e he id hw

theorem Settled.updateCart (cart : Cart) (h : Settled st s) (hp : i.request.performs
    (.carts (.update id cart))) (hh : s.held .carts = some i) (hw : Writing st i id s) :
    Settled st (s.perform Op.exec i (Op.carts (.update id cart))) ∧
      Later s.data (s.perform Op.exec i (Op.carts (.update id cart))).data := by
  have hid : id ∉ s.data.cancelledCarts := h.open_ i id hw
  obtain ⟨old, items, hcall, hold, -⟩ := hw.items
  have hcarts : ((Op.carts (.update id cart)).exec s.data).2.carts =
      s.data.carts.insert id cart := by
    simp only [Op.exec, StoreOp.exec, InMemoryStore.update_of_some hold, StoreOp.written]
  have hl : Later s.data ((Op.carts (.update id cart)).exec s.data).2 := by
    refine ⟨Finset.Subset.refl _, fun key hkey => ?_, fun key hkey => ?_⟩
    · rw [hcarts, InMemoryStore.get_insert]
      split
      · rfl
      · exact hkey
    · have hne : key ≠ id := by rintro rfl; exact hid hkey
      rw [hcarts, InMemoryStore.get_insert_ne _ hne]
  refine ⟨⟨fun m key hm => ?_, fun key hkey => hl.exist key (h.exist key hkey),
    fun e he key hkey => ?_⟩, hl⟩
  · have hn : ∀ l, Op.need (.carts (.update id cart)) l → s.held l = some i := by
      rintro l rfl
      exact hh
    rcases hm.of_perform hp hn with hm | ⟨-, ho, -⟩
    · exact h.open_ m key hm
    · cases ho
  · rcases List.mem_cons.mp he with rfl | he
    · obtain rfl : id = key := by simpa [writes] using hkey
      exact hid
    · exact h.wrote e he key hkey

theorem Settled.cancelCart (h : Settled st s) (hp : i.request.performs (.cancelCart id))
    (hh : s.held .cancelledCarts = some i) (hex : (s.data.carts.get id).isSome)
    (hno : writing st s id = false) :
    Settled st (s.perform Op.exec i (Op.cancelCart id)) ∧
      Later s.data (s.perform Op.exec i (Op.cancelCart id)).data := by
  have hl : Later s.data ((Op.cancelCart id).exec s.data).2 :=
    ⟨Finset.subset_insert _ _, fun _ hkey => hkey, fun _ _ => rfl⟩
  refine ⟨⟨fun m key hm => ?_, fun key hkey => ?_, fun e he key hkey => ?_⟩, hl⟩
  · have hn : ∀ l, Op.need (.cancelCart id) l → s.held l = some i := by
      rintro l rfl
      exact hh
    rcases hm.of_perform hp hn with hw | ⟨-, ho, -⟩
    · refine fun hmem => ?_
      rcases Finset.mem_insert.mp hmem with rfl | hmem
      · cases hno.symm.trans hw.writing_eq_true
      · exact h.open_ m key hw hmem
    · cases ho
  · rcases Finset.mem_insert.mp hkey with rfl | hkey
    · exact hex
    · exact h.exist key hkey
  · rcases List.mem_cons.mp he with rfl | he
    · cases hkey
    · exact h.wrote e he key hkey

section Spec

variable (ext : Platform) (st : AppState)

def spec : Spec (app ext st) where
  locks := discipline ext st
  inv := Settled st
  evolves := Later
  evolves_refl := Later.refl
  evolves_trans := Later.trans
  allow _ o s := ∀ id, o = .cancelCart id → writing st s id = false
  drop_inv _ _ _ h _ _ := h.abandon

def May (q : Request) (H : Set Lock) (o : Op) : Prop :=
  q.may H o ∧ (∀ id cart, o ≠ .carts (.update id cart)) ∧ ∀ id, o ≠ .cancelCart id

def Reader (q : Request) : Prop := ∀ id items, q.call ≠ .updateCart id items

variable {ext st}

theorem harmless (hr : Reader i.request) :
    (spec ext st).Harmless i (fun _ => True) (May i.request) where
  stable _ _ _ _ := trivial
  perform H o s hm hH hi _ _ := by
    have hn : ∀ l, o.need l → s.held l = some i := fun l hl => hH l (hm.1.2 l hl)
    obtain ⟨hs, hl⟩ := hi.perform hm.1.1 hn hm.2.1 hm.2.2
    exact ⟨hn, ⟨hs, hl⟩, trivial⟩
  waiting _ _ _ _ := trivial
  acquire l s hi _ _ := by
    refine ⟨hi.acquire (fun _ id hw => ?_), trivial⟩
    obtain ⟨cart, items, hcall, -⟩ := hw.items
    exact hr id items hcall
  release l s hi _ _ := ⟨hi.release l, trivial⟩

structure Holding (i : Name Request) (id : String) (cart : Cart) (s : State) : Prop where
  held : s.held .carts = some i
  stored : s.data.carts.get id = some cart
  unwritten : ∀ e ∈ s.history, e.actor = i → writes id e = false

theorem Holding.rely {cart : Cart} (h : Holding i id cart s) (hr : (spec ext st).Rely i s s') :
    Holding i id cart s' where
  held := (hr.held _).mpr h.held
  stored := by
    have hsame : s'.data.carts = s.data.carts := hr.same .carts h.held
    rw [hsame, h.stored]
  unwritten e he hei := h.unwritten e (hr.own he hei) hei

theorem readFlag_ensures {α : Type} {post : Except ApiError α → State → Prop}
    {f : Bool → Handler ApiError α} (hp : i.request.performs (.cartCancelled id))
    (hh : s.held .carts = some i)
    (rest : ∀ b u, (∀ cart, Holding i id cart s → Holding i id cart u) → u.held .carts = some i →
      (b = false → ∃ e ∈ u.history, e.actor = i ∧ seenOpen id e = true) →
        (spec ext st).Ensures i post (f b) u) :
    (spec ext st).Ensures i post
      (Fallible.locked .cancelledCarts (perform (.cartCancelled id)) >>= f) s := by
  have hne : Lock.carts ≠ .cancelledCarts := by simp
  rw [Spec.ensures_bind (P := spec ext st), Spec.ensures_locked (P := spec ext st)]
  intro s1 hr1 hi1
  refine ⟨trivial, fun _ => ⟨hi1.acquire (fun h => absurd h.symm hne), ?_⟩⟩
  refine (Spec.ensures_perform (P := spec ext st) _).mpr ?_
  intro s2 hr2 hi2 _
  have hflag : s2.held .cancelledCarts = some i := (hr2.held _).mpr (s1.acquire_held_self i _)
  have hn : ∀ l, Op.need (.cartCancelled id) l → s2.held l = some i := by
    rintro l rfl
    exact hflag
  obtain ⟨hs, hl⟩ := hi2.perform (i := i) hp hn (by simp) (by simp)
  refine ⟨hn, ⟨hs, hl⟩, fun s3 hr3 hi3 => ⟨(hr3.held _).mpr hflag, hi3.release _, ?_⟩⟩
  have hheld (t : State) (ht : t.held .carts = some i) :
      (t.acquire i Lock.cancelledCarts).held .carts = some i := by
    rw [t.acquire_held_ne i hne, ht]
  have hheld2 : s2.held .carts = some i := (hr2.held _).mpr (hheld s1 ((hr1.held _).mpr hh))
  refine rest _ _ (fun cart hc => ?_) ?_ (fun hb => ?_)
  · have hc1 : Holding i id cart s1 := hc.rely hr1
    have hc1' : Holding i id cart (s1.acquire i Lock.cancelledCarts) :=
      ⟨hheld s1 hc1.held, hc1.stored, hc1.unwritten⟩
    have hc2 : Holding i id cart s2 := hc1'.rely hr2
    have hc2' : Holding i id cart (s2.perform Op.exec i (.cartCancelled id)) := by
      refine ⟨hc2.held, hc2.stored, fun e he hei => ?_⟩
      rcases List.mem_cons.mp he with rfl | he
      · rfl
      · exact hc2.unwritten e he hei
    have hc3 : Holding i id cart s3 := hc2'.rely hr3
    exact ⟨(s3.release_held_ne hne).trans hc3.held, hc3.stored, hc3.unwritten⟩
  · exact (s3.release_held_ne hne).trans ((hr3.held _).mpr hheld2)
  · refine ⟨_, hr3.history.subset List.mem_cons_self, rfl, ?_⟩
    change seenOpen id ⟨i, .cartCancelled id, (Op.exec (.cartCancelled id) s2.data).1, s2.data⟩ = true
    rw [show (Op.exec (.cartCancelled id) s2.data).1 = false from hb]
    simp [seenOpen]

theorem updateCart_ensures {items : List LineItem} (hcall : i.request.call = .updateCart id items)
    (hnew : s.Newcomer i) :
    (spec ext st).Ensures i (fun _ _ => True) (updateCart st id items) s := by
  have hread : i.request.performs (.cartCancelled id) := by simp [Request.performs, hcall]
  rw [updateCart, Spec.ensures_locked (P := spec ext st)]
  intro s1 hr1 hi1
  have hown1 : ∀ e ∈ s1.history, e.actor ≠ i := fun e he hei =>
    hnew.history e (hr1.own he hei) hei
  refine ⟨trivial, fun hf1 => ⟨hi1.acquire (fun _ key hw => ?_), ?_⟩⟩
  · obtain ⟨e, he, hei, -⟩ := hw.checked
    exact hown1 e he hei
  have hdone {u : State} (hu : u.held .carts = some i) :
      ∀ u', (spec ext st).Rely i u u' → (spec ext st).inv u' →
        u'.held .carts = some i ∧ (spec ext st).inv (u'.release Lock.carts) ∧ True :=
    fun u' hru hiu => ⟨(hru.held _).mpr hu, hiu.release _, trivial⟩
  rw [Spec.ensures_perform_bind (P := spec ext st)]
  intro s2 hr2 hi2 _
  have hheld2 : s2.held .carts = some i := (hr2.held _).mpr (s1.acquire_held_self i _)
  have hget : ∀ l, Op.need (.carts (.get id)) l → s2.held l = some i := by
    rintro l rfl
    exact hheld2
  obtain ⟨hs2, hl2⟩ := hi2.perform (i := i) (o := .carts (.get id))
    (by simp [Request.performs, hcall]) hget (by simp) (by simp)
  refine ⟨hget, ⟨hs2, hl2⟩, ?_⟩
  rw [show ((app ext st).exec (Op.carts (.get id)) s2.data).1 = s2.data.carts.get id from rfl,
    Spec.ensures_okOr_bind (P := spec ext st)]
  cases hcart : s2.data.carts.get id with
  | none => exact hdone hheld2
  | some cart =>
      have hkeep : Holding i id cart (s2.perform Op.exec i (Op.carts (.get id))) := by
        refine ⟨hheld2, hcart, fun e he hei => ?_⟩
        rcases List.mem_cons.mp he with rfl | he
        · rfl
        · have hold : e ∈ (s1.acquire i Lock.carts).history := hr2.own he hei
          exact absurd hei (hown1 e hold)
      dsimp only
      refine readFlag_ensures hread hkeep.held (fun b u hu hheld hopen => ?_)
      cases b with
      | true => exact hdone hheld
      | false =>
          simp only [Bool.false_eq_true, if_false]
          rw [Spec.ensures_mapErr_bind (P := spec ext st)]
          cases hv : validateCatalogItems st cart.currency items with
          | error e => exact hdone hheld
          | ok _ =>
              dsimp only
              rw [Spec.ensures_perform_bind (P := spec ext st)]
              intro s3 hr3 hi3 _
              have hk3 := (hu cart hkeep).rely hr3
              obtain ⟨e, he, hei, hse⟩ := hopen rfl
              have hw : Writing st i id s3 := ⟨hk3.held, ⟨cart, items, hcall, hk3.stored, hv⟩,
                ⟨e, hr3.history.subset he, hei, hse⟩, hk3.unwritten⟩
              obtain ⟨hs3, hl3⟩ := hi3.updateCart (i := i)
                (fillCart cart.currency items) (by simp [Request.performs, hcall])
                hk3.held hw
              refine ⟨?_, ⟨hs3, hl3⟩, ?_⟩
              · rintro l rfl
                exact hk3.held
              · rw [Spec.ensures_mapErr_bind (P := spec ext st)]
                split
                · exact readFlag_ensures hread hk3.held (fun b u _ hheld _ => hdone hheld)
                · exact hdone hk3.held

theorem cancelCart_ensures (hcall : i.request.call = .cancelCart id) :
    (spec ext st).Ensures i (fun _ _ => True) (cancelCart st id) s := by
  have hr : Reader i.request := fun id items h => by cases hcall.symm.trans h
  have hnw (t : State) (key : String) : ¬ Writing st i key t := fun hw => by
    obtain ⟨cart, items, h, -⟩ := hw.items
    exact hr key items h
  rw [cancelCart, Spec.ensures_bind (P := spec ext st), Spec.ensures_locked (P := spec ext st)]
  intro s1 hr1 hi1
  refine ⟨trivial, fun _ => ⟨hi1.acquire (fun _ => hnw _), ?_⟩⟩
  refine (Spec.ensures_perform (P := spec ext st) _).mpr ?_
  intro s2 hr2 hi2 _
  have hheld : s2.held .carts = some i := (hr2.held _).mpr (s1.acquire_held_self i _)
  have hget : ∀ l, Op.need (.carts (.get id)) l → s2.held l = some i := by
    rintro l rfl
    exact hheld
  obtain ⟨hs, hl⟩ := hi2.perform (i := i) (o := .carts (.get id))
    (by simp [Request.performs, hcall]) hget (by simp) (by simp)
  refine ⟨hget, ⟨hs, hl⟩, fun s3 hr3 hi3 => ⟨(hr3.held _).mpr hheld, hi3.release _, ?_⟩⟩
  have hresp : ((app ext st).exec (Op.carts (.get id)) s2.data).1 = s2.data.carts.get id := rfl
  rw [hresp]
  dsimp only
  rw [Spec.ensures_okOr_bind (P := spec ext st)]
  cases hcart : s2.data.carts.get id with
  | none => trivial
  | some cart =>
      have hex3 : (s3.data.carts.get id).isSome := hr3.evolves.exist id (hl.exist id (by simp [hcart]))
      dsimp only
      rw [Spec.ensures_bind (P := spec ext st), Spec.ensures_locked (P := spec ext st)]
      intro s4 hr4 hi4
      refine ⟨trivial, fun _ => ⟨hi4.acquire (fun _ => hnw _), ?_⟩⟩
      refine (Spec.ensures_perform (P := spec ext st) _).mpr ?_
      intro s5 hr5 hi5 hallow
      have hheld5 : s5.held .cancelledCarts = some i :=
        (hr5.held _).mpr (s4.acquire_held_self i _)
      have hex5 : (s5.data.carts.get id).isSome :=
        hr5.evolves.exist id (hr4.evolves.exist id hex3)
      obtain ⟨hs5, hl5⟩ := hi5.cancelCart (i := i) (by simp [Request.performs, hcall]) hheld5 hex5
        (hallow id rfl)
      refine ⟨?_, ⟨hs5, hl5⟩, fun s6 hr6 hi6 => ⟨(hr6.held _).mpr hheld5, hi6.release _, trivial⟩⟩
      rintro l rfl
      exact hheld5

theorem handler_holds (hnew : s.Newcomer i) :
    (spec ext st).Holds i (fun _ _ => True) (handler ext st i.request) s := by
  obtain ⟨n, agent, call⟩ := i
  have rest (hr : Reader ⟨agent, call⟩) (hp : ∀ o, Request.performs ⟨agent, call⟩ o →
      (∀ id cart, o ≠ .carts (.update id cart)) ∧ ∀ id, o ≠ .cancelCart id) :
      (spec ext st).Holds ⟨n, agent, call⟩ (fun _ _ => True) (handler ext st ⟨agent, call⟩) s :=
    (Spec.Holds.of_respects (harmless hr) ((handler_respects ext st ⟨agent, call⟩).mono
      (fun H o ho => ⟨ho, hp o ho.1⟩)) trivial (by simp)).mono (fun _ _ _ => trivial)
  cases call with
  | updateCart id items => exact holds_replyTo.mpr (updateCart_ensures rfl hnew)
  | cancelCart id => exact holds_replyTo.mpr (cancelCart_ensures rfl)
  | _ =>
      refine rest (fun _ _ h => by cases h) (fun o ho => ⟨?_, ?_⟩)
      · rintro id cart rfl
        simp [Request.performs] at ho
      · rintro id rfl
        simp [Request.performs] at ho

theorem admits : (spec ext st).Admits (fun c a => NoRace st c a = true) where
  spawn _ _ _ _ hnew := handler_holds hnew
  step c n q o k ha hn _ id ho := by
    subst ho
    simpa [NoRace, hn] using ha
  drop _ _ _ _ _ _ _ _ := trivial
  stable _ _ _ _ _ _ := trivial

end Spec

theorem settled_start (st : AppState) (crypto : Crypto) : Settled st (.start (Data.new crypto)) where
  open_ m id hm := by cases hm.held
  exist id hid := by simp [Shared.start, Data.new] at hid
  wrote e he := by simp [Shared.start] at he

/-- What is cancelled never changes again, and no update that succeeded wrote to
it after it was cancelled. -/
def StaysFrozen (ext : Platform) (st : AppState) (A : Configuration → Action Request → Prop)
    (c : Configuration) : Prop :=
  (∀ c', (app ext st).Runs A c c' → ∀ id ∈ c.shared.data.cancelledCarts,
    c'.shared.data.carts.get id = c.shared.data.carts.get id) ∧
  ∀ n q x id, c.returned n = some (q, .cart (.ok x)) → ∀ e ∈ c.shared.history,
    e.actor = ⟨n, q⟩ → writes id e = true → id ∉ e.before.cancelledCarts

/-- Cancelled carts are frozen in every run without a race. -/
theorem frozen_of_noRace (ext : Platform) (st : AppState) {c : Configuration}
    (h : (app ext st).Runs (fun c a => NoRace st c a = true) (.start (Data.new ext.crypto)) c) :
    StaysFrozen ext st (fun c a => NoRace st c a = true) c := by
  have hc : (spec ext st).Sound c :=
    Spec.Sound.runs admits (Spec.sound_start (settled_start st ext.crypto)) h
  refine ⟨fun c' h' id hid => ?_, fun n q x id _ e he _ hw => hc.inv.wrote e he id hw⟩
  have hl : Later c.shared.data c'.shared.data := hc.evolves_runs admits h'
  exact hl.frozen id hid

section Runs

def update (quantity : UInt32) : Request := ⟨none, .updateCart "cart-0" [⟨"p-1", quantity⟩]⟩

def oneCart : List (Action Request) :=
  System.enter 0 ⟨none, .createCart ⟨none, [⟨"p-1", 2⟩]⟩⟩ 4

def raced : List (Action Request) :=
  oneCart ++ System.enter 1 ⟨none, .cancelCart "cart-0"⟩ 3 ++ System.enter 2 (update 7) 5 ++
    List.replicate 3 (.step 1)

/-- The update then writes the cancelled cart. -/
theorem raced_cart_changes : ¬ ∀ (ext : Platform) (st : AppState) (c : Configuration),
    (app ext st).Runs (fun _ _ => True) (.start (Data.new ext.crypto)) c →
      StaysFrozen ext st (fun _ _ => True) c := by
  intro h
  have hplay : (((app .bare .shop).play (fun _ _ => True) (.start (Data.new Platform.bare.crypto))
      raced).bind (fun c =>
        ((app .bare .shop).play (fun _ _ => True) c (List.replicate 5 (.step 2))).map (fun c' =>
          decide ("cart-0" ∈ c.shared.data.cancelledCarts ∧
            c.shared.data.carts.get "cart-0" = some ⟨.USD, [⟨"p-1", 2⟩]⟩ ∧
            c'.shared.data.carts.get "cart-0" = some ⟨.USD, [⟨"p-1", 7⟩]⟩)))) = some true := by
    decide +kernel
  obtain ⟨c, hc, hrest⟩ := Option.bind_eq_some_iff.mp hplay
  obtain ⟨c', hc', heq⟩ := Option.map_eq_some_iff.mp hrest
  obtain ⟨hid, hold, hnew⟩ := of_decide_eq_true heq
  have hsame := (h .bare .shop c (System.play_runs hc)).1 c' (System.play_runs hc') "cart-0" hid
  rw [hold, hnew] at hsame
  exact absurd hsame (by decide)

theorem frozen_of_noRace_sequential : ∃ c : Configuration,
    "cart-0" ∈ c.shared.data.cancelledCarts ∧
      StaysFrozen .bare .shop (fun c a => NoRace .shop c a = true) c := by
  have hplay : (((app .bare .shop).play (fun c a => NoRace .shop c a = true)
      (.start (Data.new Platform.bare.crypto)) (oneCart ++ System.enter 1 (update 7) 10 ++
        System.enter 2 ⟨none, .cancelCart "cart-0"⟩ 6)).map (fun c =>
          decide ("cart-0" ∈ c.shared.data.cancelledCarts))) = some true := by
    decide +kernel
  obtain ⟨c, hc, heq⟩ := Option.map_eq_some_iff.mp hplay
  exact ⟨c, of_decide_eq_true heq, frozen_of_noRace .bare .shop (System.play_runs hc)⟩

end Runs

end AiterCommerce.Guarantees.Frozen
