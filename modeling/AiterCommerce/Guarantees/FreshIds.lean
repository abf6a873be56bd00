import AiterCommerce.Encoding.Decimal
import AiterCommerce.Guarantees.Books
import AiterCommerce.Machine.Tickets

namespace AiterCommerce.Guarantees.FreshIds

open AiterCommerce.Core Concurrent Server Machine
open Books (Happening completes orderKey_injective receiptId_injective)
open Spec (Ensures Harmless)

/-- The stores whose keys are generated. -/
inductive Family
  | cart | session | consent
  deriving DecidableEq

def Family.kind : Family → String
  | cart => "cart"
  | session => "cs"
  | consent => "cons"

def Family.key (f : Family) (n : ℕ) : String := f.kind ++ "-" ++ toString n

def Stored (d : Data) : Family → String → Prop
  | .cart, key => (d.carts.get key).isSome
  | .session, key => (d.sessions.get key).isSome
  | .consent, key => (d.consents.get key).isSome

def KeyedBy {V : Type} (id : V → String) (store : InMemoryStore String V) : Prop :=
  ∀ key x, store.get key = some x → id x = key

/-- Each record is stored under its own id. A cart has none but its key. -/
structure Owned (d : Data) : Prop where
  sessions : KeyedBy CheckoutSession.id d.sessions
  consents : KeyedBy Consent.consentId d.consents
  orders : KeyedBy Order.id d.orders

def creates : Op → Option (Family × String)
  | .carts (.create key _) => some (.cart, key)
  | .sessions (.create key _) => some (.session, key)
  | .consents (.create key _) => some (.consent, key)
  | _ => none

def drawOf : Happening → Option (Name Request × ℕ)
  | ⟨i, .fetchId, n, _⟩ => some (i, UInt64.toNat n)
  | _ => none

def useOf (e : Happening) : Option (Name Request × Family × String) :=
  (creates e.op).map (fun u => (e.actor, u))

/-- The numbers that were generated, and the keys that were made for them. -/
def tickets (h : List Happening) : Tickets (Name Request) (Family × String) :=
  ⟨h.filterMap drawOf, h.filterMap useOf⟩

def Shows (n : ℕ) (u : Family × String) : Prop := u.2 = u.1.key n

def Refused : Happening → Prop
  | ⟨_, .carts (.create _ _), r, _⟩ | ⟨_, .sessions (.create _ _), r, _⟩
  | ⟨_, .consents (.create _ _), r, _⟩ | ⟨_, .orders (.create _ _), r, _⟩ =>
      r = Except.error StoreError.alreadyExists
  | _ => False

/-- Orders and receipts are made of the session that is completed. -/
def Derived (q : Request) : Op → Prop
  | .orders (.create key _) => ∃ k, completes q = some k ∧ key = orderKey k
  | .pushReceipt r => ∃ k, completes q = some k ∧ r.id = receiptId (orderKey k)
  | _ => True

def Unwrapped (h : List Happening) : Prop := (tickets h).drawn.length < 2 ^ 64

structure Issued (s : State) : Prop where
  next : s.data.nextId.toNat = (tickets s.history).drawn.length
  orderly : Tickets.Orderly Shows (tickets s.history)
  stored : ∀ f key, Stored s.data f key → ∃ i, (i, f, key) ∈ (tickets s.history).used
  accepted : ∀ e ∈ s.history, ¬ Refused e

structure Inv (s : State) : Prop where
  owned : Owned s.data
  derived : ∀ e ∈ s.history, Derived e.actor.request e.op
  issued : Unwrapped s.history → Issued s

def Unmade (i : Name Request) (s : State) : Prop := ∀ u, (i, u) ∉ (tickets s.history).used

/-- The request may now create its record: it has drawn the number that the key shows. -/
def Takes (i : Name Request) (u : Family × String) (s : State) : Prop :=
  Unmade i s ∧ ∃ n, (i, n) ∈ (tickets s.history).drawn ∧ Shows n u

def Keying {V : Type} (id : V → String) : StoreOp V → Prop
  | .create key x | .update key x => id x = key
  | .get _ => True

def Named : Op → Prop
  | .sessions o => Keying CheckoutSession.id o
  | .consents o => Keying Consent.consentId o
  | .orders o => Keying Order.id o
  | _ => True

/-- What must hold where a request performs an operation, for ids to stay fresh. -/
structure Proper (i : Name Request) (o : Op) (s : State) : Prop where
  named : Named o
  derived : Derived i.request o
  takes : ∀ u, creates o = some u → Takes i u s
  vacant : ∀ key x, o = .orders (.create key x) → s.data.orders.get key = none

variable {i : Name Request} {o : Op} {d : Data} {s s' : State} {f : Family} {key : String}

theorem key_injective (f : Family) : Function.Injective f.key := by
  intro m n h
  have hl := congrArg String.toList h
  simp only [Family.key, String.toList_append, List.append_cancel_left_eq, Nat.toString_eq_repr,
    Nat.toList_repr] at hl
  have hread := congrArg Encoding.Decimal.natural hl
  simpa only [Encoding.Decimal.natural_toDigits, Option.some.injEq] using hread

theorem shows_unique (m n : ℕ) (u : Family × String) (hm : Shows m u) (hn : Shows n u) : m = n :=
  key_injective u.1 (hm.symm.trans hn)

section Step

theorem KeyedBy.exec {V : Type} {id : V → String} {store : InMemoryStore String V} {o : StoreOp V}
    (h : KeyedBy id store) (ho : Keying id o) : KeyedBy id (o.exec store).2 := by
  intro key x hx
  rcases StoreOp.get_exec hx with hx | ⟨rfl, -⟩ | ⟨rfl, -⟩
  · exact h key x hx
  · exact ho
  · exact ho

theorem Owned.exec (h : Owned d) (ho : Named o) : Owned (o.exec d).2 := by
  cases o with
  | sessions o => exact ⟨h.sessions.exec ho, h.consents, h.orders⟩
  | consents o => exact ⟨h.sessions, h.consents.exec ho, h.orders⟩
  | orders o => exact ⟨h.sessions, h.consents, h.orders.exec ho⟩
  | _ => exact ⟨h.sessions, h.consents, h.orders⟩

theorem isSome_exec {V : Type} {store : InMemoryStore String V} {o : StoreOp V}
    (h : ((o.exec store).2.get key).isSome) :
    (store.get key).isSome ∨ ∃ x, o = .create key x := by
  obtain ⟨x, hx⟩ := Option.isSome_iff_exists.mp h
  rcases StoreOp.get_exec hx with hx | ⟨rfl, -⟩ | ⟨-, hs⟩
  · exact .inl (by simp [hx])
  · exact .inr ⟨x, rfl⟩
  · exact .inl hs

theorem stored_exec (h : Stored (o.exec d).2 f key) :
    Stored d f key ∨ creates o = some (f, key) := by
  cases f with
  | cart =>
      cases o with
      | carts o => exact (isSome_exec h).imp_right (fun ⟨x, hx⟩ => by rw [hx]; rfl)
      | _ => exact .inl h
  | session =>
      cases o with
      | sessions o => exact (isSome_exec h).imp_right (fun ⟨x, hx⟩ => by rw [hx]; rfl)
      | _ => exact .inl h
  | consent =>
      cases o with
      | consents o => exact (isSome_exec h).imp_right (fun ⟨x, hx⟩ => by rw [hx]; rfl)
      | _ => exact .inl h

theorem isSome_of_refused {V : Type} {store : InMemoryStore String V} {x : V}
    (h : ((StoreOp.create key x).exec store).1 = .error .alreadyExists) :
    (store.get key).isSome := by
  by_contra hn
  rw [StoreOp.exec, InMemoryStore.create_of_none (by simpa using hn)] at h
  cases h

theorem Refused.taken (h : Refused ⟨i, o, (o.exec d).1, d⟩) :
    (∃ u, creates o = some u ∧ Stored d u.1 u.2) ∨
      ∃ key x, o = .orders (.create key x) ∧ (d.orders.get key).isSome := by
  cases o with
  | carts o | sessions o | consents o =>
      cases o with
      | create key x => exact .inl ⟨_, rfl, isSome_of_refused h⟩
      | get key | update key x => exact h.elim
  | orders o =>
      cases o with
      | create key x => exact .inr ⟨key, x, rfl, isSome_of_refused h⟩
      | get key | update key x => exact h.elim
  | _ => exact h.elim

theorem tickets_fetchId :
    tickets (s.perform Op.exec i Op.fetchId).history =
      ⟨(i, s.data.nextId.toNat) :: (tickets s.history).drawn, (tickets s.history).used⟩ := rfl

theorem tickets_create {u : Family × String} (h : creates o = some u) :
    tickets (s.perform Op.exec i o).history = (tickets s.history).use i u := by
  cases o with
  | carts o | sessions o | consents o =>
      cases o with
      | create key x => cases h; rfl
      | get key | update key x => cases h
  | _ => cases h

theorem tickets_other (hf : o ≠ .fetchId) (h : creates o = none) :
    tickets (s.perform Op.exec i o).history = tickets s.history := by
  cases o with
  | carts o | sessions o | consents o =>
      cases o with
      | create key x => cases h
      | get key | update key x => rfl
  | fetchId => exact absurd rfl hf
  | _ => rfl

theorem nextId_exec (hf : o ≠ .fetchId) : (o.exec d).2.nextId = d.nextId := by
  cases o with
  | fetchId => exact absurd rfl hf
  | _ => rfl

theorem Unwrapped.suffix {h h' : List Happening} (hw : Unwrapped h') (hs : h <:+ h') :
    Unwrapped h :=
  (hs.sublist.filterMap drawOf).length_le.trans_lt hw

theorem Issued.accepted_perform (h : Issued s) (hp : Proper i o s) :
    ∀ e ∈ (s.perform Op.exec i o).history, ¬ Refused e := by
  intro e he hr
  rcases List.mem_cons.mp he with rfl | he
  · rcases hr.taken with ⟨u, hu, hst⟩ | ⟨key, x, rfl, hk⟩
    · obtain ⟨hfirst, n, hn, hshows⟩ := hp.takes u hu
      obtain ⟨j, hj⟩ := h.stored _ _ hst
      exact h.orderly.unused shows_unique hfirst hn hshows hj
    · rw [hp.vacant key x rfl] at hk
      cases hk
  · exact h.accepted e he hr

theorem Issued.draw (h : Issued s) (hp : Proper i .fetchId s)
    (hw : Unwrapped (s.perform Op.exec i Op.fetchId).history) :
    Issued (s.perform Op.exec i Op.fetchId) := by
  have ht : tickets (s.perform Op.exec i Op.fetchId).history = (tickets s.history).draw i := by
    rw [tickets_fetchId, h.next]
    rfl
  have hlt : s.data.nextId.toNat + 1 < 2 ^ 64 := h.next ▸ hw
  refine ⟨?_, ht ▸ h.orderly.draw i, fun f key hst => ?_, h.accepted_perform hp⟩
  · change (s.data.nextId + 1).toNat = _
    rw [ht, UInt64.toNat_add, UInt64.toNat_one, Nat.mod_eq_of_lt hlt, h.next]
    rfl
  · rw [ht]
    exact h.stored f key hst

theorem Issued.create (h : Issued s) (hp : Proper i o s) {u : Family × String}
    (hc : creates o = some u) : Issued (s.perform Op.exec i o) := by
  have hf : o ≠ .fetchId := by
    rintro rfl
    cases hc
  have hnext : (s.perform Op.exec i o).data.nextId = s.data.nextId := nextId_exec hf
  have ht := tickets_create (i := i) (s := s) hc
  obtain ⟨hfirst, n, hn, hshows⟩ := hp.takes u hc
  refine ⟨?_, ht ▸ h.orderly.use hfirst hn hshows, fun f key hst => ?_, h.accepted_perform hp⟩
  · rw [hnext, ht, h.next]
    rfl
  · rw [ht]
    rcases stored_exec hst with hst | hst
    · obtain ⟨j, hj⟩ := h.stored f key hst
      exact ⟨j, List.mem_cons_of_mem _ hj⟩
    · obtain rfl := Option.some.inj (hc.symm.trans hst)
      exact ⟨i, List.mem_cons_self⟩

theorem Issued.other (h : Issued s) (hp : Proper i o s) (hf : o ≠ .fetchId)
    (hc : creates o = none) : Issued (s.perform Op.exec i o) := by
  have hnext : (s.perform Op.exec i o).data.nextId = s.data.nextId := nextId_exec hf
  have ht := tickets_other (i := i) (s := s) hf hc
  refine ⟨?_, ht ▸ h.orderly, fun f key hst => ?_, h.accepted_perform hp⟩
  · rw [hnext, ht, h.next]
  · rw [ht]
    rcases stored_exec hst with hst | hst
    · exact h.stored f key hst
    · cases hc.symm.trans hst

theorem Issued.perform (h : Issued s) (hp : Proper i o s)
    (hw : Unwrapped (s.perform Op.exec i o).history) : Issued (s.perform Op.exec i o) := by
  by_cases hf : o = .fetchId
  · subst hf
    exact h.draw hp hw
  · cases hc : creates o with
    | none => exact h.other hp hf hc
    | some u => exact h.create hp hc

theorem Inv.perform (h : Inv s) (hp : Proper i o s) : Inv (s.perform Op.exec i o) where
  owned := h.owned.exec hp.named
  derived := List.forall_mem_cons.mpr ⟨hp.derived, h.derived⟩
  issued hw := (h.issued (hw.suffix (List.suffix_cons _ _))).perform hp hw

end Step

section Handlers

theorem Inv.congr (h : Inv s) (hd : s'.data = s.data) (hh : s'.history = s.history) : Inv s' where
  owned := hd ▸ h.owned
  derived := hh ▸ h.derived
  issued hw := by
    obtain ⟨hnext, horderly, hstored, haccepted⟩ := h.issued (hh ▸ hw)
    exact ⟨by rw [hd, hh, hnext], hh ▸ horderly, by rw [hd, hh]; exact hstored,
      hh ▸ haccepted⟩

def spec (ext : Platform) (st : AppState) : Spec (app ext st) where
  locks := discipline ext st
  inv := Inv
  drop_inv _ _ _ h _ _ := h.congr rfl rfl

def Plain (q : Request) : Op → Prop
  | .carts (.create _ _) | .sessions (.create _ _) | .consents (.create _ _)
  | .orders (.create _ _) => False
  | o => Named o ∧ Derived q o

def May (q : Request) (H : Set Lock) (o : Op) : Prop := (∀ l, o.need l → l ∈ H) ∧ Plain q o

variable {ext : Platform} {st : AppState} {H : Set Lock}

theorem mem_used {h : List Happening} {u : Family × String} :
    (i, u) ∈ (tickets h).used ↔ ∃ e ∈ h, e.actor = i ∧ creates e.op = some u := by
  obtain ⟨f, key⟩ := u
  simp [tickets, useOf, List.mem_filterMap, and_comm]

theorem Plain.creates {q : Request} (h : Plain q o) : creates o = none := by
  cases o with
  | carts o | sessions o | consents o => cases o <;> first | rfl | exact h.elim
  | _ => rfl

theorem Plain.proper (h : Plain i.request o) : Proper i o s where
  named := by
    cases o with
    | sessions o | consents o | orders o => cases o <;> first | exact h.1 | exact h.elim
    | _ => trivial
  derived := by
    cases o with
    | orders o => cases o <;> first | exact h.2 | exact h.elim
    | pushReceipt r => exact h.2
    | _ => trivial
  takes u hu := by cases h.creates.symm.trans hu
  vacant key x hx := by subst hx; exact h.elim

theorem Unmade.rely (h : Unmade i s) (hr : (spec ext st).Rely i s s') : Unmade i s' := by
  intro u hu
  obtain ⟨e, he, hi, hc⟩ := mem_used.mp hu
  exact h u (mem_used.mpr ⟨e, hr.own he hi, hi, hc⟩)

theorem Unmade.perform (h : Unmade i s) (hc : creates o = none) :
    Unmade i (s.perform Op.exec i o) := by
  intro u hu
  obtain ⟨e, he, hi, hu⟩ := mem_used.mp hu
  rcases List.mem_cons.mp he with rfl | he
  · cases hc.symm.trans hu
  · exact h u (mem_used.mpr ⟨e, he, hi, hu⟩)

theorem unmade_of_newcomer (h : s.Newcomer i) : Unmade i s := by
  intro u hu
  obtain ⟨e, he, hi, -⟩ := mem_used.mp hu
  exact h.history e he hi

theorem Takes.rely {u : Family × String} (h : Takes i u s) (hr : (spec ext st).Rely i s s') :
    Takes i u s' := by
  obtain ⟨hfirst, n, hn, hshows⟩ := h
  have hsuf : s.history <:+ s'.history := hr.history
  exact ⟨Unmade.rely hfirst hr, n, (hsuf.sublist.filterMap drawOf).subset hn, hshows⟩

theorem lockFree : (spec ext st).LockFree := fun _ _ h => h.congr rfl rfl

theorem Inv.good (hi : Inv s) (hm : May i.request H o) (hH : ∀ l ∈ H, s.held l = some i) :
    (∀ l, (spec ext st).locks.need o l → s.held l = some i) ∧
      (spec ext st).Good s (s.perform Op.exec i o) :=
  ⟨fun l hl => hH l (hm.1 l hl), hi.perform hm.2.proper, trivial⟩

theorem harmless : (spec ext st).Harmless i (fun _ => True) (May i.request) where
  stable _ _ _ _ := trivial
  perform _ _ s hm hH hi _ _ := by
    obtain ⟨hn, hg⟩ := Inv.good (s := s) hi hm hH
    exact ⟨hn, hg, trivial⟩
  waiting _ _ _ _ := trivial
  acquire _ s hi _ _ := ⟨lockFree s _ hi, trivial⟩
  release _ s hi _ _ := ⟨lockFree s _ hi, trivial⟩

theorem harmless_unmade : (spec ext st).Harmless i (Unmade i) (May i.request) where
  stable _ _ hr h := h.rely hr
  perform _ _ s hm hH hi h _ := by
    obtain ⟨hn, hg⟩ := Inv.good (s := s) hi hm hH
    exact ⟨hn, hg, h.perform hm.2.creates⟩
  waiting _ _ _ _ := trivial
  acquire _ s hi h _ := ⟨lockFree s _ hi, h⟩
  release _ s hi h _ := ⟨lockFree s _ hi, h⟩

theorem may_plain {q : Request} (hn : ∀ l, o.need l → l ∈ H) (hp : Plain q o) : May q H o :=
  ⟨hn, hp⟩

theorem genId_ensures {ε α : Type} {post : Except ε α → State → Prop} (f : Family)
    {g : String → Handler ε α} (h : Unmade i s)
    (rest : ∀ key u, Takes i (f, key) u → (spec ext st).Ensures i post (g key) u) :
    (spec ext st).Ensures i post (genId f.kind >>= g) s := by
  rw [genId, bind_assoc]
  refine Ensures.perform_bind (H := ∅) harmless_unmade
    (may_plain (by simp [Op.need]) ⟨trivial, trivial⟩) h (by simp) (fun s1 _ _ _ _ h1 => ?_)
  exact rest _ _ ⟨h1, s1.data.nextId.toNat, List.mem_cons_self, rfl⟩

theorem create_ensures {α : Type} {l : Lock} {u : Family × String}
    {g : Op.Resp o → Handler ApiError α} (hl : ∀ m, o.need m → m = l) (hc : creates o = some u)
    (ho : Named o) (hd : Derived i.request o)
    (hg : ∀ r s, (spec ext st).Ensures i (fun _ _ => True) (g r) s) (h : Takes i u s) :
    (spec ext st).Ensures i (fun _ _ => True) (Fallible.locked l (Server.perform o) >>= g) s := by
  rw [Spec.ensures_bind (P := spec ext st), Spec.ensures_locked (P := spec ext st)]
  intro s1 hr1 hi1
  refine ⟨trivial, fun _ => ⟨lockFree s1 _ hi1, ?_⟩⟩
  refine (Spec.ensures_perform (P := spec ext st) _).mpr (fun s2 hr2 hi2 _ => ?_)
  have hl2 : s2.held l = some i := (hr2.held l).mpr (s1.acquire_held_self i _)
  have h1 : Takes i u s1 := h.rely hr1
  have h2 : Takes i u s2 := Takes.rely (s := s1.acquire i l) h1 hr2
  have hp : Proper i o s2 :=
    { named := ho
      derived := hd
      takes := fun v hv => Option.some.inj (hc.symm.trans hv) ▸ h2
      vacant := fun key x hx => by subst hx; cases hc }
  refine ⟨fun m hm => hl m hm ▸ hl2, ⟨hi2.perform hp, trivial⟩, fun u hru hiu => ?_⟩
  exact ⟨(hru.held l).mpr hl2, lockFree u _ hiu, hg _ _⟩

theorem createCart_ensures {body : CreateCartRequest} (h : Unmade i s) :
    (spec ext st).Ensures i (fun _ _ => True) (createCart st body) s := by
  rw [createCart, Spec.ensures_mapErr_bind (P := spec ext st)]
  split
  · refine genId_ensures .cart h (fun key u hu => ?_)
    refine create_ensures (by simp [Op.need]) rfl trivial trivial (fun r s => ?_) hu
    cases r <;> trivial
  · trivial

theorem createConsent_ensures {body : ConsentRequest} {now : Int64} (h : Unmade i s) :
    (spec ext st).Ensures i (fun _ _ => True) (createConsent body now) s := by
  rw [createConsent, Spec.ensures_mapErr_bind (P := spec ext st)]
  split
  · refine genId_ensures .consent h (fun key u hu => ?_)
    refine create_ensures (by simp [Op.need]) rfl (Consent.new_consentId ..) trivial (fun r s => ?_) hu
    cases r <;> trivial
  · trivial

theorem createCheckoutSession_ensures {body : CreateSessionRequest} {now : Int64}
    (h : Unmade i s) :
    (spec ext st).Ensures i (fun _ _ => True) (createCheckoutSession st body now) s := by
  refine Ensures.locked_perform_bind harmless_unmade
    (may_plain (by simp [Op.need]) ⟨trivial, trivial⟩) (Set.notMem_empty Lock.carts) h (by simp)
    (fun s1 u1 _ _ _ _ _ _ h1 _ => ?_)
  rw [Spec.ensures_okOr_bind (P := spec ext st)]
  split
  next cart _ =>
    refine Ensures.locked_perform_bind harmless_unmade
      (may_plain (by simp [Op.need]) ⟨trivial, trivial⟩) (Set.notMem_empty Lock.cancelledCarts)
      h1 (by simp) (fun s2 u2 _ _ _ _ _ _ h2 _ => ?_)
    cases ((app ext st).exec (Op.cartCancelled body.cartId) s2.data).1 with
    | true => trivial
    | false =>
        rw [if_neg Bool.false_ne_true, Spec.ensures_mapErr_bind (P := spec ext st)]
        split
        · refine genId_ensures .session h2 (fun key u hu => ?_)
          refine create_ensures (by simp [Op.need]) rfl (CheckoutSession.new_id ..)
            trivial (fun r s => ?_) hu
          cases r <;> trivial
        · trivial
  next => trivial

/-- The request holds the locks of a completion and its order is not stored. -/
structure Vacant (i : Name Request) (id : String) (s : State) : Prop where
  held : ∀ l ∈ ({.sessions, .orders} : Set Lock), s.held l = some i
  free : s.data.orders.get (orderKey id) = none

section Vacant

variable {id : String} {l : Lock}

theorem Vacant.rely (h : Vacant i id s) (hr : (spec ext st).Rely i s s') : Vacant i id s' where
  held l hl := (hr.held l).mpr (h.held l hl)
  free := by
    have hsame : s'.data.orders = s.data.orders := (hr.same .orders (h.held _ (by simp))).1
    rw [hsame, h.free]

theorem Vacant.acquire (h : Vacant i id s) (hl : l ∉ ({.sessions, .orders} : Set Lock)) :
    Vacant i id (s.acquire i l) where
  held m hm := by
    have hne : m ≠ l := by rintro rfl; exact hl hm
    rw [s.acquire_held_ne i hne, h.held m hm]
  free := h.free

theorem Vacant.release (h : Vacant i id s) (hl : l ∉ ({.sessions, .orders} : Set Lock)) :
    Vacant i id (s.release l) where
  held m hm := by
    have hne : m ≠ l := by rintro rfl; exact hl hm
    rw [s.release_held_ne hne, h.held m hm]
  free := h.free

end Vacant

theorem storeOrder_ensures {id : String} {session : CheckoutSession} {now : Int64}
    {g : Order → Handler ApiError Order} (hk : completes i.request = some id)
    (hid : session.id = id) (hg : ∀ order, order.id = orderKey id →
      Fallible.Respects (May i.request) {.sessions, .orders} (g order)) (h : Vacant i id s) :
    (spec ext st).Ensures i
      (fun _ u => True ∧ ∀ l ∈ ({.sessions, .orders} : Set Lock), u.held l = some i)
      (storeOrder id session now >>= g) s := by
  rw [storeOrder, bind_assoc, Spec.ensures_mapErr_bind (P := spec ext st)]
  split
  next paid hpaid =>
    obtain rfl := markPaid_ok hpaid
    simp only [bind_assoc]
    rw [Spec.ensures_perform_bind (P := spec ext st)]
    intro s1 hr1 hi1 _
    have h1 : Vacant i id s1 := h.rely hr1
    have hp : Proper i (.orders (.create (orderKey id) (Order.new (orderKey id) id session.totals now)))
        s1 :=
      { named := rfl
        derived := ⟨id, hk, rfl⟩
        takes := fun u hu => by cases hu
        vacant := fun key x hx => by cases hx; exact h1.free }
    refine ⟨?_, ⟨hi1.perform hp, trivial⟩, ?_⟩
    · rintro l rfl
      exact h1.held _ (by simp)
    · refine Ensures.of_respects harmless ?_ trivial h1.held
      refine .bind (.mapErr _ _) (fun _ => ?_)
      refine .bind (.perform (may_plain (by simp [Op.need]) ⟨hid, trivial⟩)) (fun _ => ?_)
      refine .bind (.mapErr _ _) (fun _ => ?_)
      exact .bind (.perform (may_plain (by simp [Op.need]) ⟨trivial, trivial⟩)) (fun _ => hg _ rfl)
  next => exact ⟨trivial, h.held⟩

theorem chargeAgent_ensures {α : Type} {a id : String} {amount : Amount}
    {g : Unit → Handler ApiError α} {post : Except ApiError α → State → Prop}
    (rest : ∀ r u, Vacant i id u → (spec ext st).Ensures i post (g r) u)
    (herr : ∀ e u, Vacant i id u → post (.error e) u) (h : Vacant i id s) :
    (spec ext st).Ensures i post (Server.chargeAgent a amount >>= g) s := by
  have hl : Lock.agents ∉ ({.sessions, .orders} : Set Lock) := by simp
  rw [Server.chargeAgent, bind_assoc]
  rw [Spec.ensures_bind (P := spec ext st), Spec.ensures_locked (P := spec ext st)]
  intro s1 hr1 hi1
  refine ⟨trivial, fun _ => ⟨lockFree s1 _ hi1, ?_⟩⟩
  refine (Spec.ensures_perform (P := spec ext st) _).mpr (fun s2 hr2 hi2 _ => ?_)
  have h1 : Vacant i id (s1.acquire i Lock.agents) := Vacant.acquire (h.rely hr1) hl
  have h2 : Vacant i id s2 := h1.rely hr2
  have ha2 : s2.held .agents = some i := (hr2.held _).mpr (s1.acquire_held_self i _)
  have h3 : Vacant i id (s2.perform Op.exec i (.chargeAgent a amount)) := ⟨h2.held, h2.free⟩
  refine ⟨?_, ⟨hi2.perform (Plain.proper ⟨trivial, trivial⟩), trivial⟩, fun u hru hiu => ?_⟩
  · rintro l (rfl | rfl)
    · exact ha2
    · exact h2.held _ (by simp)
  · refine ⟨(hru.held _).mpr ha2, lockFree u _ hiu, ?_⟩
    have h4 : Vacant i id (u.release Lock.agents) := Vacant.release (h3.rely hru) hl
    dsimp only
    rw [Spec.ensures_mapErr_bind (P := spec ext st)]
    split
    · exact rest _ _ h4
    · exact herr _ _ h4

theorem placeOrder_ensures {agent : Option String} {id : String} {session : CheckoutSession}
    {now issuedAt : Int64} (hk : completes i.request = some id) (hid : session.id = id)
    (h : Vacant i id s) :
    (spec ext st).Ensures i
      (fun _ u => True ∧ ∀ l ∈ ({.sessions, .orders} : Set Lock), u.held l = some i)
      (placeOrder agent id session now issuedAt) s := by
  cases agent with
  | none =>
      rw [placeOrder_none, ← bind_pure (storeOrder id session now)]
      exact storeOrder_ensures hk hid (fun _ _ => .pure _) h
  | some a =>
      rw [placeOrder_some]
      refine chargeAgent_ensures (fun _ u hu => ?_) (fun _ _ hu => ⟨trivial, hu.held⟩) h
      refine storeOrder_ensures hk hid (fun order horder => ?_) hu
      refine .bind (.bind (locked_perform_respects (by simp) ?_) (fun _ => .pure _))
        (fun _ => .pure _)
      refine may_plain (by simp [Op.need]) ⟨trivial, id, hk, ?_⟩
      exact congrArg receiptId horder

theorem completeCheckout_ensures {agent : Option String} {id : String} {now issuedAt : Int64}
    (hk : completes i.request = some id) :
    (spec ext st).Ensures i (fun _ _ => True) (completeCheckout agent id now issuedAt) s := by
  refine completion_ensures harmless (may_plain (by simp [Op.need]) ⟨trivial, trivial⟩)
    (may_plain (by simp [Op.need]) ⟨trivial, trivial⟩)
    (fun d s1 session hfree hsame hi _ hH hs _ _ => ?_) trivial
  have hid : session.id = id := hi.owned.sessions id session hs
  have hfree1 : s1.data.orders.get (orderKey id) = none := by rw [hsame.1, hfree]
  exact placeOrder_ensures hk hid ⟨hH, hfree1⟩

theorem cancelCheckout_ensures {id : String} :
    (spec ext st).Ensures i (fun _ _ => True) (cancelCheckout id) s := by
  refine Server.cancelCheckout_ensures harmless (may_plain (by simp [Op.need]) ⟨trivial, trivial⟩)
    (fun s1 session m hi _ hH hs hm => ?_) trivial
  have hid : session.id = id := hi.owned.sessions id session hs
  refine Ensures.of_respects harmless (hm.mono ?_) trivial hH
  rintro H o ⟨rfl, rfl⟩
  exact may_plain (by simp [Op.need]) ⟨hid, trivial⟩

theorem debit_ensures {confirm : Bool} {body : DebitRequest} :
    (spec ext st).Ensures i (fun _ _ => True) (debit confirm body) s := by
  refine Server.debit_ensures (P := spec ext st) (K := fun _ => True) (L := fun _ _ => True) rfl
    harmless (fun _ => harmless) (may_plain (by simp [Op.need]) ⟨trivial, trivial⟩)
    (may_plain (by simp [Op.need]) ⟨trivial, trivial⟩) ?_ (fun _ _ _ => trivial)
    (fun _ _ _ _ _ => trivial) trivial
  intro s1 s2 consent remaining _ _ _ _ hi _ hc
  have hid : consent.consentId = body.consentId := hi.owned.consents _ consent hc
  exact ⟨⟨hi.perform (Plain.proper ⟨hid, trivial⟩), trivial⟩, trivial⟩

theorem reconcilePayment_ensures {key paymentId : String} {payment : WebhookPaymentEntity}
    {now : Int64} :
    (spec ext st).Ensures i (fun _ _ => True) (reconcilePayment key paymentId payment now) s := by
  refine Server.reconcilePayment_ensures harmless
    (may_plain (by simp [Op.need]) ⟨trivial, trivial⟩) (fun s1 order m hi hH ho hm => ?_) trivial
  have hid : order.id = key := hi.owned.orders key order ho
  refine Ensures.of_respects harmless (hm.mono ?_) trivial hH
  rintro H o ⟨rfl, -, confirmed, hc, rfl⟩
  have hid' : confirmed.id = key := (Order.applyEvent_frame hc).1.trans hid
  exact may_plain (by simp [Op.need]) ⟨hid', trivial⟩

theorem handler_holds (hnew : s.Newcomer i) :
    (spec ext st).Holds i ((spec ext st).post i) (handler ext st i.request) s := by
  have hu : Unmade i s := unmade_of_newcomer hnew
  obtain ⟨n, agent, call⟩ := i
  cases call with
  | createCart body => exact holds_replyTo.mpr (createCart_ensures hu)
  | createCheckoutSession body now => exact holds_replyTo.mpr (createCheckoutSession_ensures hu)
  | createConsent body now => exact holds_replyTo.mpr (createConsent_ensures hu)
  | completeCheckout id now issuedAt => exact holds_replyTo.mpr (completeCheckout_ensures rfl)
  | cancelCheckout id => exact holds_replyTo.mpr cancelCheckout_ensures
  | debit confirm body => exact holds_replyTo.mpr debit_ensures
  | razorpayWebhook signature body now =>
      refine holds_replyTo.mpr (razorpayWebhook_ensures harmless
        (may_plain (by simp [Op.need]) ⟨trivial, trivial⟩) ?_)
      exact fun _ _ _ _ _ _ _ => reconcilePayment_ensures
  | getCart | updateCart | cancelCart | orderPaymentLink | registerAgent =>
      refine (Spec.Holds.of_respects harmless ((handler_respects ext st _).mono
        (fun H o ho => may_plain ho.2 ?_)) trivial (by simp)).mono (fun _ _ _ => trivial)
      have hp := ho.1
      cases o with
      | carts o | sessions o | consents o | orders o =>
          cases o <;> first | exact ⟨trivial, trivial⟩ | simp [Request.performs] at hp
      | _ => first | exact ⟨trivial, trivial⟩ | simp [Request.performs] at hp

theorem admits (A : Configuration → Action Request → Prop) : (spec ext st).Admits A where
  spawn _ _ _ _ hnew := handler_holds hnew
  step _ _ _ _ _ _ _ _ := trivial
  drop _ _ _ _ _ _ _ _ := trivial
  stable _ _ _ _ _ h := h

end Handlers

theorem inv_start (crypto : Crypto) : Inv (.start (Data.new crypto)) where
  derived _ h := by cases h
  owned := ⟨fun _ _ h => (by cases h), fun _ _ h => (by cases h), fun _ _ h => (by cases h)⟩
  issued _ :=
    { next := rfl
      orderly := .empty
      stored := fun f _ h => by cases f <;> cases h
      accepted := fun _ h => by cases h }

/-- Every key is the prefix of its store, a dash and a number below the counter,
another one for each record; each record is under its own id, no creation found
its key taken, and orders and receipts have the ids made of their sessions. -/
structure Fresh (s : State) : Prop where
  generated : ∀ f key, Stored s.data f key → ∃ n < s.data.nextId.toNat, key = f.key n
  distinct : ∀ f g n, Stored s.data f (f.key n) → Stored s.data g (g.key n) → f = g
  owned : Owned s.data
  accepted : ∀ e ∈ s.history, ¬ Refused e
  derived : ∀ e ∈ s.history, Derived e.actor.request e.op

theorem Inv.fresh (h : Inv s) (hw : Unwrapped s.history) : Fresh s where
  generated f key hst := by
    have hf := h.issued hw
    obtain ⟨i, hi⟩ := hf.stored f key hst
    obtain ⟨n, hn, hshows⟩ := hf.orderly.marked i _ hi
    exact ⟨n, hf.next ▸ hf.orderly.below i n hn, hshows⟩
  distinct f g n hst hst' := by
    have hf := h.issued hw
    obtain ⟨i, hi⟩ := hf.stored f _ hst
    obtain ⟨j, hj⟩ := hf.stored g _ hst'
    exact congrArg Prod.fst (hf.orderly.eq_of_mark shows_unique hi hj (n := n) rfl rfl)
  owned := h.owned
  accepted := (h.issued hw).accepted
  derived := h.derived

/-- In every run in which the counter has not wrapped the generated ids are
fresh, and so are the order and receipt ids that are made of them. -/
theorem ids_fresh (ext : Platform) (st : AppState) {c : Configuration}
    (h : (app ext st).Runs (fun _ _ => True) (.start (Data.new ext.crypto)) c)
    (hw : Unwrapped c.shared.history) :
    Fresh c.shared ∧ Function.Injective orderKey ∧
      Function.Injective (fun sessionId => receiptId (orderKey sessionId)) := by
  have hc := Spec.Sound.runs (admits _) (Spec.sound_start (P := spec ext st) (inv_start _)) h
  have hi : Inv c.shared := hc.inv
  exact ⟨hi.fresh hw, orderKey_injective, receiptId_injective.comp orderKey_injective⟩

def crossed : List (Action Request) :=
  [.spawn ⟨some demoAgentId, .createCart ⟨none, [⟨"p-1", 2⟩]⟩⟩,
    .spawn ⟨some demoAgentId, .createCart ⟨none, []⟩⟩, .step 0, .step 1, .step 1, .step 1, .step 1,
    .step 0, .step 0, .step 0] ++
  System.enter 2 ⟨some demoAgentId, .createCheckoutSession ⟨"cart-0", none⟩ 0⟩ 10 ++
  System.enter 3 ⟨some demoAgentId, .createConsent ⟨"u", demoAgentId, 5, none, "d"⟩ 0⟩ 4 ++
  System.enter 4 ⟨some demoAgentId, .completeCheckout "cs-2" 0 0⟩ 15

theorem ids_fresh_crossed : ∃ c : Configuration,
    ((c.shared.data.carts.get "cart-0").isSome ∧ (c.shared.data.carts.get "cart-1").isSome ∧
      (c.shared.data.sessions.get "cs-2").isSome ∧ (c.shared.data.consents.get "cons-3").isSome ∧
      (c.shared.data.orders.get "ord-cs-2").isSome) ∧ Fresh c.shared := by
  have hplay : (((app .bare .shop).play (fun _ _ => True)
      (.start (Data.new Platform.bare.crypto)) crossed).map (fun c =>
        (((c.shared.data.carts.get "cart-0").isSome && (c.shared.data.carts.get "cart-1").isSome &&
          (c.shared.data.sessions.get "cs-2").isSome && (c.shared.data.consents.get "cons-3").isSome &&
          (c.shared.data.orders.get "ord-cs-2").isSome),
          (tickets c.shared.history).drawn.length))) = some (true, 4) := by
    decide +kernel
  obtain ⟨c, hc, heq⟩ := Option.map_eq_some_iff.mp hplay
  obtain ⟨hstored, hdrawn⟩ := Prod.mk.inj heq
  simp only [Bool.and_eq_true, and_assoc] at hstored
  have hw : Unwrapped c.shared.history := by
    rw [Unwrapped, hdrawn]
    decide
  exact ⟨c, hstored, (ids_fresh .bare .shop (System.play_runs hc) hw).1⟩

end AiterCommerce.Guarantees.FreshIds
