import AiterCommerce.Concurrent.Logic

namespace AiterCommerce.Concurrent.Spec

variable {Sg : Interface} {S Q R T : Type} [DecidableEq Sg.Lock] [DecidableEq Q]
  {sys : System Sg S Q R} {P : Spec sys} {i j : Name Q} {s : Shared Sg S Q}

omit [DecidableEq Sg.Lock] in
theorem rely_perform (hij : j ≠ i) (o : Sg.Op) (hn : ∀ l, P.locks.need o l → s.held l = some i)
    (he : P.evolves s.data (sys.exec o s.data).2) :
    P.Rely j s (s.perform sys.exec i o) where
  held _ := Iff.rfl
  same l hl := P.locks.frame o l s.data (fun h => hij (Option.some.inj (hl.symm.trans (hn l h))))
  evolves := he
  events := by
    refine ⟨[⟨i, o, (sys.exec o s.data).1, s.data⟩], rfl, fun e he => ?_⟩
    obtain rfl := List.mem_singleton.mp he
    exact ⟨Ne.symm hij, fun l hl h => hij (Option.some.inj (hl.symm.trans (hn l h)))⟩

omit [DecidableEq Sg.Lock] in
theorem rely_held (f : Sg.Lock → Option (Name Q)) (h : ∀ l, f l = some j ↔ s.held l = some j) :
    P.Rely j s { s with held := f } :=
  ⟨h, fun l _ => P.locks.same_refl l _, P.evolves_refl _, [], rfl, by simp⟩

theorem rely_acquire (hij : j ≠ i) {l : Sg.Lock} (hf : s.held l = none) :
    P.Rely j s (s.acquire i l) := by
  refine rely_held _ (fun m => ?_)
  by_cases hm : m = l
  · subst hm; simp [hf, Ne.symm hij]
  · simp [hm]

theorem rely_release (hij : j ≠ i) {l : Sg.Lock} (hh : s.held l = some i) :
    P.Rely j s (s.release l) := by
  refine rely_held _ (fun m => ?_)
  by_cases hm : m = l
  · subst hm; simp [hh, Ne.symm hij]
  · simp [hm]

omit [DecidableEq Sg.Lock] in
theorem rely_abandon (hij : j ≠ i) : P.Rely j s (s.abandon i) := by
  refine rely_held _ (fun m => ?_)
  by_cases hm : s.held m = some i
  · simp [hm, Ne.symm hij]
  · simp [hm]

/-- What soundness keeps of a configuration: the invariant, the rest of every
live task is within the specification, the data evolved from every earlier point
of the run, and only tasks that arrived have performed anything or hold locks. -/
structure Sound (P : Spec sys) (c : World Sg S Q R) : Prop where
  inv : P.inv c.shared
  tasks : ∀ n q t, c.procs[n]? = some ⟨q, some t⟩ → P.Holds ⟨n, q⟩ (P.post ⟨n, q⟩) t c.shared
  past : ∀ e ∈ c.shared.history, P.evolves e.before c.shared.data
  actors : ∀ e ∈ c.shared.history, e.actor.index < c.procs.length
  holders : ∀ l i, c.shared.held l = some i → i.index < c.procs.length

/-- The actions a condition lets through meet what the specification asks. -/
structure Admits (P : Spec sys) (A : World Sg S Q R → Action Q → Prop) : Prop where
  spawn : ∀ c q, A c (.spawn q) → P.inv c.shared →
    c.shared.Newcomer ⟨c.procs.length, q⟩ →
    P.Holds ⟨c.procs.length, q⟩ (P.post ⟨c.procs.length, q⟩) (sys.handler q) c.shared
  step : ∀ c n q o k, A c (.step n) → c.procs[n]? = some ⟨q, some (.op o k)⟩ → P.inv c.shared →
    P.allow ⟨n, q⟩ o c.shared
  drop : ∀ c n q l k, A c (.drop n) → c.procs[n]? = some ⟨q, some (.lock l k)⟩ →
    P.inv c.shared → P.allowDrop ⟨n, q⟩ l c.shared
  stable : ∀ n r s s', P.Rely n s s' → P.post n r s → P.post n r s'

variable {A : World Sg S Q R → Action Q → Prop} {c c' : World Sg S Q R}

theorem Sound.set (hA : P.Admits A) (hc : P.Sound c) {n : Nat} {q : Q}
    {rest : Option (Prog Sg R)} {s' : Shared Sg S Q} (hi : P.inv s')
    (ht : ∀ t, rest = some t → P.Holds ⟨n, q⟩ (P.post ⟨n, q⟩) t s')
    (hr : ∀ m : Name Q, m ≠ ⟨n, q⟩ → P.Rely m c.shared s')
    (hp : ∀ e ∈ s'.history, P.evolves e.before s'.data)
    (hact : ∀ e ∈ s'.history, e.actor.index < c.procs.length)
    (hhold : ∀ l i, s'.held l = some i → i.index < c.procs.length) :
    P.Sound ⟨s', c.procs.set n ⟨q, rest⟩⟩ where
  inv := hi
  past := hp
  actors e he := by rw [List.length_set]; exact hact e he
  holders l i hl := by rw [List.length_set]; exact hhold l i hl
  tasks m q' t hm := by
    rw [List.getElem?_set] at hm
    split at hm
    next hnm =>
      subst hnm
      split at hm
      · have h := Option.some.inj hm
        simp only [Proc.mk.injEq] at h
        obtain ⟨rfl, hrest⟩ := h
        exact ht t hrest
      · cases hm
    next hnm =>
      have hne : (⟨m, q'⟩ : Name Q) ≠ ⟨n, q⟩ := fun h => hnm (congrArg Name.index h).symm
      exact (hc.tasks m q' t hm).rely (hA.stable ⟨m, q'⟩) (hr _ hne)

theorem Sound.spawn (hA : P.Admits A) (hc : P.Sound c) {q : Q} (ha : A c (.spawn q)) :
    P.Sound { c with procs := c.procs ++ [⟨q, some (sys.handler q)⟩] } where
  inv := hc.inv
  past := hc.past
  actors e he := by
    have h := hc.actors e he
    rw [List.length_append]
    exact Nat.lt_add_right 1 h
  holders l i hl := by
    have h := hc.holders l i hl
    rw [List.length_append]
    exact Nat.lt_add_right 1 h
  tasks m q' t hm := by
    rw [List.getElem?_append] at hm
    split at hm
    · exact hc.tasks m q' t hm
    next hlt =>
      obtain hz | hz : m - c.procs.length = 0 ∨ 0 < m - c.procs.length := by omega
      · rw [hz] at hm
        have h := Option.some.inj hm
        simp only [Proc.mk.injEq, Option.some.injEq] at h
        obtain ⟨rfl, rfl⟩ := h
        have hmc : m = c.procs.length := by omega
        subst hmc
        exact hA.spawn c q ha hc.inv
          ⟨fun e he h => (hc.actors e he).ne (congrArg Name.index h),
            fun l hl => (hc.holders l _ hl).ne rfl⟩
      · rw [List.getElem?_eq_none (by simp; omega)] at hm
        cases hm

theorem Sound.advance (hA : P.Admits A) (hc : P.Sound c) {n : Nat} {q : Q} {t t' : Prog Sg R}
    {s' : Shared Sg S Q} (ha : A c (.step n)) (hn : c.procs[n]? = some ⟨q, some t⟩)
    (hs : sys.advance ⟨n, q⟩ t c.shared = some (s', t')) :
    P.Sound ⟨s', c.procs.set n ⟨q, some t'⟩⟩ := by
  have hh := hc.tasks n q t hn
  cases t with
  | ret r => cases hs
  | op o k =>
      obtain ⟨rfl, rfl⟩ := by simpa [System.advance] using hs
      obtain ⟨hl, hg, hk⟩ := hh _ (Rely.refl _ _) hc.inv (hA.step c n q o k ha hn hc.inv)
      refine hc.set hA hg.inv (fun _ h => Option.some.inj h ▸ hk)
        (fun m hm => rely_perform hm o hl hg.evolves) (fun e he => ?_) (fun e he => ?_)
        hc.holders
      · rcases List.mem_cons.mp he with rfl | he
        · exact hg.evolves
        · exact P.evolves_trans (hc.past e he) hg.evolves
      · rcases List.mem_cons.mp he with rfl | he
        · exact (List.getElem?_eq_some_iff.mp hn).1
        · exact hc.actors e he
  | lock l k =>
      simp only [System.advance] at hs
      split at hs
      next hf =>
        obtain ⟨rfl, rfl⟩ := by simpa using hs
        obtain ⟨hi, hk⟩ := (hh _ (Rely.refl _ _) hc.inv).2 hf
        refine hc.set hA hi (fun _ h => Option.some.inj h ▸ hk) (fun m hm => rely_acquire hm hf)
          hc.past hc.actors (fun m j hj => ?_)
        by_cases hm : m = l
        · subst hm
          obtain rfl := Option.some.inj ((c.shared.acquire_held_self _ m).symm.trans hj)
          exact (List.getElem?_eq_some_iff.mp hn).1
        · exact hc.holders m j (by rwa [c.shared.acquire_held_ne _ hm] at hj)
      next => cases hs
  | unlock l k =>
      simp only [System.advance] at hs
      split at hs
      next hl =>
        obtain ⟨rfl, rfl⟩ := by simpa using hs
        obtain ⟨-, hi, hk⟩ := hh _ (Rely.refl _ _) hc.inv
        refine hc.set hA hi (fun _ h => Option.some.inj h ▸ hk) (fun m hm => rely_release hm hl)
          hc.past hc.actors (fun m j hj => ?_)
        by_cases hm : m = l
        · subst hm
          cases (c.shared.release_held_self m).symm.trans hj
        · exact hc.holders m j (by rwa [c.shared.release_held_ne hm] at hj)
      next => cases hs

theorem Sound.next (hA : P.Admits A) (hc : P.Sound c) {a : Action Q} (ha : A c a)
    (hn : sys.next c a = some c') : P.Sound c' := by
  cases a with
  | spawn q =>
      cases hn
      exact hc.spawn hA ha
  | step n =>
      simp only [System.next] at hn
      split at hn
      next q t hp =>
        obtain ⟨⟨s', t'⟩, hs, rfl⟩ := Option.map_eq_some_iff.mp hn
        exact hc.advance hA ha hp hs
      next => cases hn
  | drop n =>
      simp only [System.next] at hn
      split at hn
      next q l k hp =>
        cases hn
        have hw := (hc.tasks n q _ hp _ (Rely.refl _ _) hc.inv).1
        refine hc.set hA (P.drop_inv _ l _ hc.inv hw (hA.drop c n q l k ha hp hc.inv))
          (fun _ h => by cases h) (fun m hm => rely_abandon hm) hc.past hc.actors (fun m j hj => ?_)
        simp only [Shared.abandon] at hj
        split at hj
        · cases hj
        · exact hc.holders m j hj
      next => cases hn

theorem Sound.runs (hA : P.Admits A) (hc : P.Sound c) (h : sys.Runs A c c') : P.Sound c' :=
  h.invariant (fun _ _ _ hc ha hn => hc.next hA ha hn) hc

theorem Sound.returned (hc : P.Sound c) {n : Nat} {q : Q} {r : R}
    (h : c.returned n = some (q, r)) : P.post ⟨n, q⟩ r c.shared := by
  rw [World.returned] at h
  split at h
  next q' r' hp => cases h; exact hc.tasks n _ _ hp
  next => cases h

theorem sound_start {d : S} (h : P.inv (.start d)) : P.Sound (.start d) where
  inv := h
  tasks n q t hn := by simp [World.start] at hn
  past e he := by simp [World.start, Shared.start] at he
  actors e he := by simp [World.start, Shared.start] at he
  holders l i hl := by simp [World.start, Shared.start] at hl

/-- What one action does to the data, seen from outside the run. -/
theorem Sound.evolves_next (hA : P.Admits A) (hc : P.Sound c) {a : Action Q} (ha : A c a)
    (hn : sys.next c a = some c') : P.evolves c.shared.data c'.shared.data := by
  rcases System.next_cases hn with ⟨n, q, o, k, rfl, hp, hs⟩ | ⟨hd, -⟩
  · rw [hs]
    have hh := hc.tasks n q (.op o k) hp
    exact (hh _ (Rely.refl _ _) hc.inv (hA.step c n q o k ha hp hc.inv)).2.1.evolves
  · rw [hd]
    exact P.evolves_refl _

theorem Sound.evolves_runs (hA : P.Admits A) (hc : P.Sound c) (h : sys.Runs A c c') :
    P.evolves c.shared.data c'.shared.data := by
  induction h with
  | refl => exact P.evolves_refl _
  | tail hr hs ih =>
      obtain ⟨a, ha, hn⟩ := hs
      exact P.evolves_trans ih ((hc.runs hA hr).evolves_next hA ha hn)

end AiterCommerce.Concurrent.Spec
