import AiterCommerce.Concurrent.Alone
import AiterCommerce.Concurrent.Fallible

namespace AiterCommerce.Concurrent

variable {Sg Sg' : Interface} {S Q R T α β ε ε' : Type}

structure Done (Sg : Interface) where
  op : Sg.Op
  resp : Sg.Resp op

def Done.inl (d : Done Sg) : Done (Sg.sum Sg') := ⟨Sum.inl d.op, d.resp⟩

namespace Prog

/-- Where the program performs an operation, `P` holds of all it did before, newest
first, and of the operation; where it returns, `post` holds of all it did and the result. -/
def Always (P : List (Done Sg) → Sg.Op → Prop) (post : List (Done Sg) → R → Prop) :
    List (Done Sg) → Prog Sg R → Prop
  | past, .ret r => post past r
  | past, .op o k => P past o ∧ ∀ x, (k x).Always P post (⟨o, x⟩ :: past)
  | past, .lock _ k | past, .unlock _ k => k.Always P post past

variable {P : List (Done Sg) → Sg.Op → Prop} {past : List (Done Sg)}

theorem always_bind {post : List (Done Sg) → T → Prop} (t : Prog Sg R) (f : R → Prog Sg T)
    (past : List (Done Sg)) : (t.bind f).Always P post past ↔
      t.Always P (fun past r => (f r).Always P post past) past := by
  induction t generalizing past with
  | ret r => exact Iff.rfl
  | op o k ih => simp only [bind, Always, ih]
  | lock l k ih | unlock l k ih => exact ih past

theorem always_locked {post : List (Done Sg) → R → Prop} (l : Sg.Lock) (body : Prog Sg R)
    (past : List (Done Sg)) :
    (Prog.locked l body).Always P post past ↔ body.Always P post past :=
  always_bind body _ past

theorem all_of_forall {A : Sg.Op → Prop} (hA : ∀ o, A o) (t : Prog Sg R) : t.All A := by
  induction t with
  | ret r => trivial
  | op o k ih => exact ⟨hA o, ih⟩
  | lock l k ih | unlock l k ih => exact ih

theorem All.bind {A : Sg.Op → Prop} {t : Prog Sg R} {f : R → Prog Sg T} (ht : t.All A)
    (hf : ∀ r, (f r).All A) : (t.bind f).All A := by
  induction t with
  | ret r => exact hf r
  | op o k ih => exact ⟨ht.1, fun x => ih x (ht.2 x)⟩
  | lock l k ih | unlock l k ih => exact ih ht

theorem All.and {A B : Sg.Op → Prop} {t : Prog Sg R} (h : t.All A) (h' : t.All B) :
    t.All (fun o => A o ∧ B o) := by
  induction t with
  | ret r => trivial
  | op o k ih => exact ⟨⟨h.1, h'.1⟩, fun x => ih x (h.2 x) (h'.2 x)⟩
  | lock l k ih | unlock l k ih => exact ih h h'

theorem All.mono {A B : Sg.Op → Prop} (hAB : ∀ o, A o → B o) {t : Prog Sg R} (h : t.All A) :
    t.All B := by
  induction t with
  | ret r => trivial
  | op o k ih => exact ⟨hAB o h.1, fun x => ih x (h.2 x)⟩
  | lock l k ih | unlock l k ih => exact ih h

theorem All.always {A : Sg.Op → Prop} {post : List (Done Sg) → R → Prop} {t : Prog Sg R}
    (h : t.All A) (hP : ∀ past o, A o → P past o) (hpost : ∀ past r, post past r)
    (past : List (Done Sg)) : t.Always P post past := by
  induction t generalizing past with
  | ret r => exact hpost past r
  | op o k ih => exact ⟨hP past o h.1, fun x => ih x (h.2 x) _⟩
  | lock l k ih | unlock l k ih => exact ih h past

theorem always_inl {P : List (Done (Sg.sum Sg')) → (Sg.sum Sg').Op → Prop}
    {post : List (Done (Sg.sum Sg')) → R → Prop} (base : List (Done (Sg.sum Sg')))
    (t : Prog Sg R) (past : List (Done Sg)) :
    t.inl.Always P post (past.map Done.inl ++ base) ↔
      t.Always (fun past o => P (past.map Done.inl ++ base) (Sum.inl o))
        (fun past r => post (past.map Done.inl ++ base) r) past := by
  induction t generalizing past with
  | ret r => exact Iff.rfl
  | op o k ih =>
      apply and_congr_right
      intro _
      apply forall_congr'
      intro x
      exact ih x (⟨o, x⟩ :: past)
  | lock l k ih | unlock l k ih => exact ih past

theorem Always.mono {P' : List (Done Sg) → Sg.Op → Prop} {post post' : List (Done Sg) → R → Prop}
    (hP : ∀ past o, P past o → P' past o) (hpost : ∀ past r, post past r → post' past r)
    {t : Prog Sg R} (h : t.Always P post past) : t.Always P' post' past := by
  induction t generalizing past with
  | ret r => exact hpost past r h
  | op o k ih => exact ⟨hP past o h.1, fun x => ih x (h.2 x)⟩
  | lock l k ih | unlock l k ih => exact ih h

end Prog

namespace Fallible

variable {P : List (Done Sg) → Sg.Op → Prop} {past : List (Done Sg)}

def Always (P : List (Done Sg) → Sg.Op → Prop) (post : List (Done Sg) → Except ε α → Prop)
    (past : List (Done Sg)) (m : Fallible Sg ε α) : Prop :=
  Prog.Always P post past (ExceptT.run m)

theorem always_mapErr_bind {post : List (Done Sg) → Except ε β → Prop} (g : ε' → ε)
    (x : Except ε' α) (f : α → Fallible Sg ε β) : Always P post past (mapErr g x >>= f) ↔
      match x with
      | .ok a => Always P post past (f a)
      | .error e => post past (.error (g e)) := by
  cases x <;> exact Iff.rfl

theorem always_okOr_bind {post : List (Done Sg) → Except ε β → Prop} (e : ε) (x : Option α)
    (f : α → Fallible Sg ε β) : Always P post past (okOr e x >>= f) ↔
      match x with
      | some a => Always P post past (f a)
      | none => post past (.error e) := by
  cases x <;> exact Iff.rfl

theorem always_locked_perform_bind {post : List (Done Sg) → Except ε β → Prop} (l : Sg.Lock)
    (o : Sg.Op) (f : Sg.Resp o → Fallible Sg ε β) :
    Always P post past (locked l (perform o) >>= f) ↔
      P past o ∧ ∀ x, Always P post (⟨o, x⟩ :: past) (f x) := Iff.rfl

theorem always_adaptErr_bind {post : List (Done Sg) → Except ε β → Prop} (g : ε' → ε)
    (m : Fallible Sg ε' α) (f : α → Fallible Sg ε β) : Always P post past (adaptErr g m >>= f) ↔
      Always P (fun past r => match r with
        | .ok a => Always P post past (f a)
        | .error e => post past (.error (g e))) past m := by
  refine (Prog.always_bind _ _ past).trans ((Prog.always_bind _ _ past).trans ?_)
  have hpost : (fun past (r : Except ε' α) => Prog.Always P (fun past r =>
      Prog.Always P post past (ExceptT.bindCont f r)) past (.ret (r.mapError g))) =
        fun past r => match r with
          | .ok a => Always P post past (f a)
          | .error e => post past (.error (g e)) := by
    funext past r
    cases r <;> rfl
  exact Iff.of_eq (congrArg (fun post => Prog.Always P post past (ExceptT.run m)) hpost)

end Fallible

section Runs

variable [DecidableEq Q]

/-- What a task did, newest first. -/
def own (i : Name Q) (history : List (Event Sg S Q)) : List (Done Sg) :=
  (history.filter (fun e => e.actor = i)).map (fun e => ⟨e.op, e.resp⟩)

theorem own_cons_self (e : Event Sg S Q) (history : List (Event Sg S Q)) :
    own e.actor (e :: history) = ⟨e.op, e.resp⟩ :: own e.actor history := by
  simp [own]

theorem own_cons_ne {i : Name Q} {e : Event Sg S Q} (h : e.actor ≠ i)
    (history : List (Event Sg S Q)) : own i (e :: history) = own i history := by
  simp [own, h]

theorem own_eq_nil {i : Name Q} {history : List (Event Sg S Q)}
    (h : ∀ e ∈ history, e.actor ≠ i) : own i history = [] := by
  rw [own, List.filter_eq_nil_iff.mpr (fun e he => by simpa using h e he), List.map_nil]

theorem mem_own {i : Name Q} {history : List (Event Sg S Q)} {d : Done Sg} :
    d ∈ own i history ↔ ∃ e ∈ history, e.actor = i ∧ (⟨e.op, e.resp⟩ : Done Sg) = d := by
  simp [own, and_assoc]

/-- What each request may do, given what its task did before, and may answer. -/
structure Conduct (Sg : Interface) (Q R : Type) where
  may : Q → List (Done Sg) → Sg.Op → Prop
  post : Q → List (Done Sg) → R → Prop

namespace System

variable [DecidableEq Sg.Lock] {sys : System Sg S Q R} {K : Conduct Sg Q R}

/-- The rest of every task keeps to the conduct from what it did, and so did every event. -/
structure Along (K : Conduct Sg Q R) (c : World Sg S Q R) : Prop where
  tasks : ∀ n (q : Q) (t : Prog Sg R), c.procs[n]? = some ⟨q, some t⟩ →
    t.Always (K.may q) (K.post q) (own ⟨n, q⟩ c.shared.history)
  events : ∀ newer e older, c.shared.history = newer ++ e :: older →
    K.may e.actor.request (own e.actor older) e.op
  actors : ∀ e ∈ c.shared.history, e.actor.index < c.procs.length

omit [DecidableEq Sg.Lock] in
theorem along_start (d : S) : Along K (World.start d : World Sg S Q R) := by
  constructor
  · intro n q t h
    cases h
  · intro newer e older h
    exact absurd h (by simp [World.start, Shared.start])
  · intro e he
    cases he

variable {c c' : World Sg S Q R}

omit [DecidableEq Sg.Lock] in
theorem Along.set (hc : Along K c) {s' : Shared Sg S Q} (hh : s'.history = c.shared.history)
    {n : Nat} {q : Q} {rest : Option (Prog Sg R)}
    (ht : ∀ t, rest = some t →
      t.Always (K.may q) (K.post q) (own ⟨n, q⟩ c.shared.history)) :
    Along K ⟨s', c.procs.set n ⟨q, rest⟩⟩ := by
  constructor
  · intro m q' t hm
    rw [hh]
    rw [List.getElem?_set] at hm
    split at hm
    next hnm =>
      subst hnm
      split at hm
      · cases hm
        exact ht t rfl
      · cases hm
    next => exact hc.tasks m q' t hm
  · intro newer e older h
    exact hc.events newer e older (hh.symm.trans h)
  · intro e he
    rw [List.length_set]
    exact hc.actors e (hh ▸ he)

omit [DecidableEq Sg.Lock] in
theorem Along.perform (hc : Along K c) {n : Nat} {q : Q} {o : Sg.Op}
    {k : Sg.Resp o → Prog Sg R} (hp : c.procs[n]? = some ⟨q, some (.op o k)⟩) :
    Along K ⟨c.shared.perform sys.exec ⟨n, q⟩ o,
      c.procs.set n ⟨q, some (k (sys.exec o c.shared.data).1)⟩⟩ := by
  obtain ⟨hmay, hk⟩ := hc.tasks n q _ hp
  have hlt : n < c.procs.length := (List.getElem?_eq_some_iff.mp hp).1
  constructor
  · intro m q' t hm
    rw [List.getElem?_set] at hm
    split at hm
    next hnm =>
      subst hnm
      cases hm
      have hown := own_cons_self (⟨⟨n, q⟩, o, (sys.exec o c.shared.data).1, c.shared.data⟩ :
        Event Sg S Q) c.shared.history
      rw [Shared.perform_history, hown]
      exact hk _
    next hnm =>
      have hne : (⟨n, q⟩ : Name Q) ≠ ⟨m, q'⟩ := fun he => hnm (congrArg Name.index he)
      rw [Shared.perform_history, own_cons_ne hne]
      exact hc.tasks m q' t hm
  · intro newer e older h
    rw [Shared.perform_history] at h
    cases newer with
    | nil =>
        obtain ⟨rfl, rfl⟩ := List.cons.inj h
        exact hmay
    | cons e' newer => exact hc.events newer e older (List.cons.inj h).2
  · intro e he
    rw [List.length_set]
    rcases List.mem_cons.mp he with rfl | he
    · exact hlt
    · exact hc.actors e he

theorem Along.next (hK : ∀ q, (sys.handler q).Always (K.may q) (K.post q) [])
    (hc : Along K c) {a : Action Q} (hn : sys.next c a = some c') : Along K c' := by
  cases a with
  | spawn q =>
      cases hn
      constructor
      · intro m q' t hm
        rw [List.getElem?_append] at hm
        split at hm
        next => exact hc.tasks m q' t hm
        next hlt =>
          have hnew : own ⟨m, q'⟩ c.shared.history = [] := by
            apply own_eq_nil
            intro e he hi
            have hlt' := hc.actors e he
            rw [hi] at hlt'
            exact hlt hlt'
          dsimp only
          rw [hnew]
          cases hm' : m - c.procs.length with
          | zero =>
              rw [hm'] at hm
              cases hm
              exact hK q
          | succ k =>
              rw [hm'] at hm
              cases hm
      · exact hc.events
      · intro e he
        rw [List.length_append]
        exact Nat.lt_add_right 1 (hc.actors e he)
  | step n =>
      simp only [System.next] at hn
      split at hn
      next q t hp =>
        obtain ⟨⟨s', t'⟩, hs, rfl⟩ := Option.map_eq_some_iff.mp hn
        cases t with
        | ret r => cases hs
        | op o k =>
            cases hs
            exact hc.perform hp
        | lock l k =>
            simp only [System.advance] at hs
            split at hs
            · cases hs
              apply hc.set
              · rfl
              · intro t ht
                cases ht
                have hk := hc.tasks n q _ hp
                exact hk
            · cases hs
        | unlock l k =>
            simp only [System.advance] at hs
            split at hs
            · cases hs
              apply hc.set
              · rfl
              · intro t ht
                cases ht
                have hk := hc.tasks n q _ hp
                exact hk
            · cases hs
      next => cases hn
  | drop n =>
      simp only [System.next] at hn
      split at hn
      · cases hn
        apply hc.set
        · rfl
        · intro t ht
          cases ht
      · cases hn

theorem Runs.along {A : World Sg S Q R → Action Q → Prop}
    (hK : ∀ q, (sys.handler q).Always (K.may q) (K.post q) []) {d : S}
    (h : sys.Runs A (.start d) c) : Along K c :=
  h.invariant (fun _ _ _ hc _ hn => hc.next hK hn) (along_start d)

omit [DecidableEq Sg.Lock] in
theorem Along.returned (hc : Along K c) {n : Nat} {q : Q} {r : R}
    (h : c.returned n = some (q, r)) : K.post q (own ⟨n, q⟩ c.shared.history) r := by
  rw [World.returned] at h
  split at h
  next q' r' hp =>
    cases h
    exact hc.tasks n q _ hp
  next => cases h

/-- Each event of a run happened at one moment of it: the run came to the data before the
event, and went on from the data after it. -/
theorem Runs.moment {A : World Sg S Q R → Action Q → Prop} (h : sys.Runs A c c') :
    ∀ e ∈ c'.shared.history, e ∈ c.shared.history ∨ ∃ w w', sys.Runs A c w ∧
      w.shared.data = e.before ∧ sys.Runs A w w' ∧
        w'.shared.data = (sys.exec e.op e.before).2 ∧ sys.Runs A w' c' := by
  induction h with
  | refl => exact fun e he => .inl he
  | @tail d d' hr hs ih =>
      obtain ⟨a, ha, hn⟩ := hs
      have hone : sys.Runs A d d' := .single ⟨a, ha, hn⟩
      have hearlier : ∀ e ∈ d.shared.history, e ∈ c.shared.history ∨ ∃ w w', sys.Runs A c w ∧
          w.shared.data = e.before ∧ sys.Runs A w w' ∧
            w'.shared.data = (sys.exec e.op e.before).2 ∧ sys.Runs A w' d' := by
        intro e he
        rcases ih e he with hold | ⟨w, w', hw, hbefore, hww', hafter, hw'⟩
        · exact .inl hold
        · exact .inr ⟨w, w', hw, hbefore, hww', hafter, hw'.trans hone⟩
      rcases next_cases hn with ⟨n, q, o, k, rfl, hp, hs⟩ | ⟨hd, hh⟩
      · intro e he
        rw [hs, Shared.perform_history] at he
        rcases List.mem_cons.mp he with rfl | he
        · refine .inr ⟨d, d', hr, rfl, hone, ?_, .refl⟩
          rw [hs, Shared.perform_data]
        · exact hearlier e he
      · rw [hh]
        exact hearlier

theorem Runs.answered {A : World Sg S Q R → Action Q → Prop} {d : S}
    (h : sys.Runs A (.start d) c) :
    ∀ e ∈ c.shared.history, e.resp = (sys.exec e.op e.before).1 := by
  obtain ⟨news, hh, -, hG⟩ := h.leads (G := fun e => e.resp = (sys.exec e.op e.before).1)
    (fun _ _ _ _ _ _ _ => rfl)
  intro e he
  rw [hh, show (World.start d : World Sg S Q R).shared.history = [] from rfl,
    List.append_nil] at he
  exact hG e he

end System

end Runs

end AiterCommerce.Concurrent
