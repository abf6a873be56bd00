import AiterCommerce.Guarantees.Books

namespace AiterCommerce.Guarantees.Sold

open AiterCommerce.Core Concurrent Server
open Books (completes)
open Spec (Ensures Harmless)

/-- So many stored orders are not counted as completed checkouts yet. -/
def Behind (n : Nat) (d : Data) : Prop := d.orders.len = d.checkoutsCompleted + n

/-- An order is not counted while the completion that stored it goes on. Where that waits for
another lock, it is. -/
def Guard (i : Name Request) (s : State) : Prop := s.held .orders = some i → Behind 0 s.data

def Kept (a b : Data) : Prop := ∀ k, (a.sessions.get k).isSome → (b.sessions.get k).isSome

theorem kept_exec (o : Op) (d : Data) : Kept d (o.exec d).2 := by
  intro k hk
  obtain ⟨x, hx⟩ := Option.isSome_iff_exists.mp hk
  cases o with
  | sessions o =>
      change ((o.exec d.sessions).2.get k).isSome
      rcases StoreOp.get_exec_of_some o hx with h | ⟨y, -, h⟩
      · rw [h, Option.isSome_some]
      · rw [h, Option.isSome_some]
  | _ => exact hk

def Quiet (o : Op) : Prop := ∀ n d, Behind n d → Behind n (o.exec d).2

theorem quiet_orders {o : StoreOp Order} (h : ∀ key order, o ≠ .create key order) :
    Quiet (.orders o) := by
  intro n d hd
  cases o with
  | get key => exact hd
  | create key order => exact absurd rfl (h key order)
  | update key order =>
      have hlen : ((StoreOp.update key order).exec d.orders).2.len = d.orders.len := by
        rw [StoreOp.exec, InMemoryStore.update]
        split
        next hs => exact InMemoryStore.len_insert_of_some hs order
        next => rfl
      exact hlen.trans hd

theorem quiet_of_performs {q : Request} {o : Op} (hq : completes q = none) (h : q.performs o) :
    Quiet o := by
  cases o with
  | orders o =>
      apply quiet_orders
      rintro key order rfl
      obtain ⟨agent, call⟩ := q
      cases call with
      | completeCheckout id now issuedAt => cases hq
      | _ => simp [Request.performs] at h
  | checkoutCompleted =>
      obtain ⟨agent, call⟩ := q
      cases call with
      | completeCheckout id now issuedAt => cases hq
      | _ => simp [Request.performs] at h
  | _ => exact fun _ _ hd => hd

variable {ext : Platform} {st : AppState} {i : Name Request} {s s' : State}

theorem Guard.abandon (hi : s.held .orders = none → Behind 0 s.data) (hg : Guard i s)
    (hn : (s.abandon i).held .orders = none) : Behind 0 s.data := by
  by_cases h : s.held .orders = some i
  · exact hg h
  · simp only [Shared.abandon, h, if_false] at hn
    exact hi hn

def spec (ext : Platform) (st : AppState) : Spec (app ext st) where
  locks := discipline ext st
  inv s := s.held .orders = none → Behind 0 s.data
  evolves := Kept
  evolves_refl _ _ hk := hk
  evolves_trans h h' k hk := h' k (h k hk)
  waiting i _ := Guard i
  drop_inv _ _ _ hi hg _ := Guard.abandon hi hg

theorem behind_of_same {n : Nat} {a b : Data} (h : Lock.same .orders a b) (ha : Behind n a) :
    Behind n b := by
  obtain ⟨horders, -, hcompleted⟩ := h
  rw [Behind, horders, hcompleted]
  exact ha

def May (H : Set Lock) (o : Op) : Prop := (∀ l, o.need l → l ∈ H) ∧ Quiet o

theorem harmless {K : State → Prop} (hK : (spec ext st).Lasting K) :
    (spec ext st).Harmless i (fun s => Guard i s ∧ K s) May where
  stable s s' hr h :=
    ⟨fun hl => behind_of_same (hr.same .orders ((hr.held _).mp hl)) (h.1 ((hr.held _).mp hl)),
      hK s s' hr.evolves hr.history h.2⟩
  perform H o s hm hH hi hk _ :=
    ⟨fun l hl => hH l (hm.1 l hl), ⟨fun hn => hm.2 0 _ (hi hn), kept_exec o s.data⟩,
      fun hl => hm.2 0 _ (hk.1 hl), hK s _ (kept_exec o s.data) (List.suffix_cons _ _) hk.2⟩
  waiting _ _ _ hk := hk.1
  acquire l s hi hk hf := by
    refine ⟨?_, ?_, hK s _ (fun _ h => h) List.suffix_rfl hk.2⟩ <;> intro hl
    · by_cases h : Lock.orders = l
      · subst h
        simp at hl
      · exact hi (s.acquire_held_ne i h ▸ hl)
    · by_cases h : Lock.orders = l
      · subst h
        exact hi hf
      · exact hk.1 (s.acquire_held_ne i h ▸ hl)
  release l s hi hk hh := by
    refine ⟨?_, ?_, hK s _ (fun _ h => h) List.suffix_rfl hk.2⟩ <;> intro hl
    · by_cases h : Lock.orders = l
      · subst h
        exact hk.1 hh
      · exact hi (s.release_held_ne h ▸ hl)
    · by_cases h : Lock.orders = l
      · subst h
        simp at hl
      · exact hk.1 (s.release_held_ne h ▸ hl)

def HasSession (k : String) (s : State) : Prop := (s.data.sessions.get k).isSome

theorem lasting_hasSession (k : String) : (spec ext st).Lasting (HasSession k) :=
  fun _ _ he _ h => he k h

section Completion

variable {k : String} {session : CheckoutSession} {now issuedAt : Int64} {n : Nat}

abbrev both : Set Lock := {.sessions, .orders}

structure Inside (i : Name Request) (k : String) (n : Nat) (s : State) : Prop where
  held : ∀ l ∈ both, s.held l = some i
  behind : Behind n s.data
  session : HasSession k s

theorem Inside.rely (h : Inside i k n s) (hr : (spec ext st).Rely i s s') : Inside i k n s' where
  held l hl := (hr.held l).mpr (h.held l hl)
  behind := behind_of_same (hr.same .orders (h.held _ (by simp))) h.behind
  session := lasting_hasSession k s s' hr.evolves hr.history h.session

theorem Inside.perform {o : Op} {α : Type} {f : o.Resp → Handler ApiError α}
    {post : Except ApiError α → State → Prop} (h : Inside i k n s)
    (hneed : ∀ l, o.need l → l ∈ both)
    (rest : ∀ d, Behind n d → (d.sessions.get k).isSome → ∀ u : State, u.data = (o.exec d).2 →
      (∀ m, Behind m u.data → Inside i k m u) → (spec ext st).Ensures i post (f (o.exec d).1) u) :
    (spec ext st).Ensures i post (Server.perform o >>= f) s := by
  rw [Spec.ensures_perform_bind (P := spec ext st)]
  intro s' hr _ _
  have h' := h.rely hr
  have horders : s'.held .orders = some i := h'.held _ (by simp)
  refine ⟨fun l hl => h'.held l (hneed l hl), ⟨fun hn => ?_, kept_exec o s'.data⟩, ?_⟩
  · rw [Shared.perform_held, horders] at hn
    cases hn
  · apply rest s'.data h'.behind h'.session _ rfl
    exact fun m hm => ⟨h'.held, hm, kept_exec o s'.data k h'.session⟩

theorem create_behind {d : Data} (h : Behind 0 d) (key : String) (order : Order) :
    (∃ e, ((Op.orders (.create key order)).exec d).1 = .error e ∧
        Behind 0 ((Op.orders (.create key order)).exec d).2) ∨
      (Op.orders (.create key order)).exec d =
        (.ok (), { d with orders := d.orders.insert key order }) ∧
        Behind 1 { d with orders := d.orders.insert key order } := by
  dsimp only [Op.exec, StoreOp.exec]
  cases ho : d.orders.get key with
  | some old =>
      rw [InMemoryStore.create_of_some ho]
      exact .inl ⟨_, rfl, h⟩
  | none =>
      rw [InMemoryStore.create_of_none ho]
      refine .inr ⟨rfl, ?_⟩
      rw [Behind, InMemoryStore.len_insert_of_none ho, h]

theorem storeOrder_ensures (h : Inside i k 0 s)
    (hst : ¬ (session.status ≠ .paid ∧ session.status.isTerminal = true)) :
    (spec ext st).Ensures i (fun _ u => Inside i k 0 u) (storeOrder k session now) s := by
  rw [storeOrder_of_completable now hst]
  refine h.perform (by simp [Op.need]) (fun d hd _ u hu next => ?_)
  rw [Spec.ensures_mapErr_bind (P := spec ext st)]
  rcases create_behind hd (orderKey k) (Order.new (orderKey k) k session.totals now) with
    ⟨e, he, hbehind⟩ | ⟨hok, hbehind⟩
  · rw [he]
    exact next 0 (hu ▸ hbehind)
  · rw [hok] at hu ⊢
    refine (next 1 (hu ▸ hbehind)).perform (by simp [Op.need]) (fun d hd hs u hu next => ?_)
    obtain ⟨old, hs⟩ := Option.isSome_iff_exists.mp hs
    rw [Spec.ensures_mapErr_bind (P := spec ext st)]
    dsimp only [Op.exec, StoreOp.exec] at hu ⊢
    rw [InMemoryStore.update_of_some hs] at hu ⊢
    have hpaid : Behind 1 u.data := by
      rw [hu]
      exact hd
    refine (next 1 hpaid).perform (by simp [Op.need]) (fun d hd _ u hu next => next 0 ?_)
    rw [hu]
    exact hd

theorem placeOrder_ensures {agent : Option String} (h : Inside i k 0 s)
    (hst : ¬ (session.status ≠ .paid ∧ session.status.isTerminal = true)) :
    (spec ext st).Ensures i (fun _ u => Inside i k 0 u) (placeOrder agent k session now issuedAt)
      s := by
  have hharmless : (spec ext st).Harmless i (fun s => Guard i s ∧ HasSession k s) May :=
    harmless (lasting_hasSession k)
  have stands {u : State} (hu : Guard i u ∧ HasSession k u) (hl : ∀ l ∈ both, u.held l = some i) :
      Inside i k 0 u := ⟨hl, hu.1 (hl _ (by simp)), hu.2⟩
  cases agent with
  | none =>
      rw [placeOrder_none]
      exact storeOrder_ensures h hst
  | some a =>
      rw [placeOrder_some, Server.chargeAgent, bind_assoc]
      refine Ensures.locked_perform_bind hharmless ⟨by simp [Op.need], fun _ _ hd => hd⟩ (by simp)
        ⟨fun _ => h.behind, h.session⟩ h.held (fun s1 u1 _ _ _ _ _ _ hu1 hl1 => ?_)
      rw [Spec.ensures_mapErr_bind (P := spec ext st)]
      split
      · rw [Spec.ensures_bind (P := spec ext st)]
        refine (storeOrder_ensures (stands hu1 hl1) hst).mono (fun r u2 h2 => ?_)
        cases r with
        | error e => exact h2
        | ok order =>
            dsimp only
            rw [issueReceipt, bind_assoc]
            exact Ensures.locked_perform_bind hharmless ⟨by simp [Op.need], fun _ _ hd => hd⟩
              (by simp) ⟨fun _ => h2.behind, h2.session⟩ h2.held
              (fun s3 u3 _ _ _ _ _ _ hu3 hl3 => stands hu3 hl3)
      · exact stands hu1 hl1

theorem completeCheckout_ensures {agent : Option String} (h : Guard i s) :
    (spec ext st).Ensures i (fun _ _ => True) (completeCheckout agent k now issuedAt) s := by
  have hharmless : (spec ext st).Harmless i (fun s => Guard i s ∧ True) May :=
    harmless (fun _ _ _ _ h => h)
  refine (Server.completeCheckout_ensures hharmless ⟨by simp [Op.need], fun _ _ hd => hd⟩
    ⟨by simp [Op.need], fun _ _ hd => hd⟩ (fun s' session _ hg hH hs _ hst => ?_) ⟨h, trivial⟩).mono
      (fun _ _ _ => trivial)
  have hinside : Inside i k 0 (s'.perform Op.exec i (Op.sessions (.get k))) :=
    ⟨hH, hg.1 (hH _ (by simp)), Option.isSome_iff_exists.mpr ⟨session, hs⟩⟩
  refine (placeOrder_ensures hinside hst).mono (fun _ u hu => ?_)
  exact ⟨⟨fun _ => hu.behind, trivial⟩, hu.held⟩

end Completion

theorem handler_holds (hnew : s.Newcomer i) :
    (spec ext st).Holds i (fun _ _ => True) (handler ext st i.request) s := by
  have hguard : Guard i s := fun hl => absurd hl (hnew.held _)
  obtain ⟨n, agent, call⟩ := i
  have hharmless : (spec ext st).Harmless ⟨n, agent, call⟩ (fun s => Guard ⟨n, agent, call⟩ s ∧
      True) May := harmless (fun _ _ _ _ h => h)
  have rest (hq : completes ⟨agent, call⟩ = none) : (spec ext st).Holds ⟨n, agent, call⟩
      (fun _ _ => True) (handler ext st ⟨agent, call⟩) s :=
    (Spec.Holds.of_respects hharmless ((handler_respects ext st _).mono
      (fun H o ho => ⟨ho.2, quiet_of_performs hq ho.1⟩)) ⟨hguard, trivial⟩ (by simp)).mono
        (fun _ _ _ => trivial)
  cases call with
  | completeCheckout id now issuedAt =>
      exact holds_replyTo.mpr ((completeCheckout_ensures hguard).mono (fun _ _ _ => trivial))
  | _ => exact rest rfl

theorem admits : (spec ext st).Admits (fun _ _ => True) where
  spawn _ _ _ _ hnew := handler_holds hnew
  step _ _ _ _ _ _ _ _ := trivial
  drop _ _ _ _ _ _ _ _ := trivial
  stable _ _ _ _ _ _ := trivial

/-- Whoever gives up, and wherever: unless a completion is under way, every stored order is a
completed checkout that is counted. -/
theorem orders_counted {A : Configuration → Action Request → Prop} {c : Configuration}
    (h : (app ext st).Runs A (.start (Data.new ext.crypto)) c) (hf : c.shared.held .orders = none) :
    c.shared.data.checkoutsCompleted = c.shared.data.orders.len := by
  have hstart : (spec ext st).Sound (.start (Data.new ext.crypto)) :=
    Spec.sound_start (fun _ => rfl)
  have hc := Spec.Sound.runs admits hstart (h.mono (fun _ _ _ => trivial))
  have hbehind : Behind 0 c.shared.data := hc.inv hf
  exact hbehind.symm

end AiterCommerce.Guarantees.Sold
