import AiterCommerce.Concurrent.System
import Mathlib.Data.List.Basic

namespace AiterCommerce.Concurrent

variable {Sg : Interface} {S Q R T : Type} [DecidableEq Sg.Lock] [DecidableEq Q]

/-- Which locks a task must hold for an operation, and which part of the data
cannot change under the holder of a lock. -/
structure Discipline (sys : System Sg S Q R) where
  need : Sg.Op → Sg.Lock → Prop
  same : Sg.Lock → S → S → Prop
  same_refl : ∀ l d, same l d d
  same_trans : ∀ l {a b c}, same l a b → same l b c → same l a c
  frame : ∀ o l d, ¬ need o l → same l d (sys.exec o d).2

/-- What is proved about a system: an invariant of the shared state, a preorder
the data moves along, what holds of a task that waits for a lock, and what a
result says. `allow` and `allowDrop` restrict the runs that are considered. -/
structure Spec (sys : System Sg S Q R) where
  locks : Discipline sys
  inv : Shared Sg S Q → Prop
  evolves : S → S → Prop := fun _ _ => True
  evolves_refl : ∀ d, evolves d d := by intros; trivial
  evolves_trans : ∀ {a b c}, evolves a b → evolves b c → evolves a c := by intros; trivial
  allow : Name Q → Sg.Op → Shared Sg S Q → Prop := fun _ _ _ => True
  allowDrop : Name Q → Sg.Lock → Shared Sg S Q → Prop := fun _ _ _ => True
  waiting : Name Q → Sg.Lock → Shared Sg S Q → Prop := fun _ _ _ => True
  drop_inv : ∀ i l s, inv s → waiting i l s → allowDrop i l s → inv (s.abandon i)
  post : Name Q → R → Shared Sg S Q → Prop := fun _ _ _ => True

namespace Spec

variable {sys : System Sg S Q R} (P : Spec sys)

def Foreign (i : Name Q) (s : Shared Sg S Q) (e : Event Sg S Q) : Prop :=
  e.actor ≠ i ∧ ∀ l, s.held l = some i → ¬ P.locks.need e.op l

/-- What task `i` knows of a later state, whatever the other tasks did. -/
structure Rely (i : Name Q) (s s' : Shared Sg S Q) : Prop where
  held : ∀ l, s'.held l = some i ↔ s.held l = some i
  same : ∀ l, s.held l = some i → P.locks.same l s.data s'.data
  evolves : P.evolves s.data s'.data
  events : ∃ news, s'.history = news ++ s.history ∧ ∀ e ∈ news, P.Foreign i s e

variable {P}

omit [DecidableEq Sg.Lock] in
theorem Rely.refl (i : Name Q) (s : Shared Sg S Q) : P.Rely i s s :=
  ⟨fun _ => Iff.rfl, fun l _ => P.locks.same_refl l _, P.evolves_refl _, [], rfl, by simp⟩

omit [DecidableEq Sg.Lock] in
theorem Rely.trans {i : Name Q} {s t u : Shared Sg S Q} (h : P.Rely i s t) (h' : P.Rely i t u) :
    P.Rely i s u where
  held l := (h'.held l).trans (h.held l)
  same l hl := P.locks.same_trans l (h.same l hl) (h'.same l ((h.held l).mpr hl))
  evolves := P.evolves_trans h.evolves h'.evolves
  events := by
    obtain ⟨news, hn, hf⟩ := h.events
    obtain ⟨news', hn', hf'⟩ := h'.events
    refine ⟨news' ++ news, by rw [hn', hn, List.append_assoc], fun e he => ?_⟩
    rcases List.mem_append.mp he with he | he
    · exact ⟨(hf' e he).1, fun l hl => (hf' e he).2 l ((h.held l).mpr hl)⟩
    · exact hf e he

omit [DecidableEq Sg.Lock] in
theorem Rely.history {i : Name Q} {s s' : Shared Sg S Q} (h : P.Rely i s s') :
    s.history <:+ s'.history := by
  obtain ⟨news, hn, -⟩ := h.events
  exact ⟨news, hn.symm⟩

omit [DecidableEq Sg.Lock] in
theorem Rely.own {i : Name Q} {s s' : Shared Sg S Q} (h : P.Rely i s s') {e : Event Sg S Q}
    (he : e ∈ s'.history) (hi : e.actor = i) : e ∈ s.history := by
  obtain ⟨news, hn, hf⟩ := h.events
  rw [hn] at he
  rcases List.mem_append.mp he with he | he
  · exact absurd hi (hf e he).1
  · exact he

omit [DecidableEq Sg.Lock] in
theorem Rely.filterMap {U : Type} {i : Name Q} {s s' : Shared Sg S Q} (h : P.Rely i s s')
    {f : Event Sg S Q → Option U} (hf : ∀ e, P.Foreign i s e → f e = none) :
    s'.history.filterMap f = s.history.filterMap f := by
  obtain ⟨news, hn, hnew⟩ := h.events
  have hnil : news.filterMap f = [] :=
    List.filterMap_eq_nil_iff.mpr (fun e he => hf e (hnew e he))
  rw [hn, List.filterMap_append, hnil, List.nil_append]

variable (P)

/-- A step from `s` to `s'` that keeps what is proved about the system. -/
structure Good (s s' : Shared Sg S Q) : Prop where
  inv : P.inv s'
  evolves : P.evolves s.data s'.data

/-- From `s`, whatever the other tasks do between its steps, task `i` runs the
program within the specification and ends in `post`. -/
def Holds (i : Name Q) (post : T → Shared Sg S Q → Prop) : Prog Sg T → Shared Sg S Q → Prop
  | .ret r, s => post r s
  | .op o k, s => ∀ s', P.Rely i s s' → P.inv s' → P.allow i o s' →
      (∀ l, P.locks.need o l → s'.held l = some i) ∧ P.Good s' (s'.perform sys.exec i o) ∧
        Holds i post (k (sys.exec o s'.data).1) (s'.perform sys.exec i o)
  | .lock l k, s => ∀ s', P.Rely i s s' → P.inv s' →
      P.waiting i l s' ∧
        (s'.held l = none → P.inv (s'.acquire i l) ∧ Holds i post k (s'.acquire i l))
  | .unlock l k, s => ∀ s', P.Rely i s s' → P.inv s' →
      s'.held l = some i ∧ P.inv (s'.release l) ∧ Holds i post k (s'.release l)

variable {P} {i : Name Q}

theorem Holds.mono {p q : T → Shared Sg S Q → Prop} (hpq : ∀ r s, p r s → q r s)
    {t : Prog Sg T} {s : Shared Sg S Q} (h : P.Holds i p t s) : P.Holds i q t s := by
  induction t generalizing s with
  | ret r => exact hpq r s h
  | op o k ih =>
      intro s' hr hi ha
      obtain ⟨hn, hg, hk⟩ := h s' hr hi ha
      exact ⟨hn, hg, ih _ hk⟩
  | lock l k ih =>
      intro s' hr hi
      obtain ⟨hw, hk⟩ := h s' hr hi
      exact ⟨hw, fun hf => ⟨(hk hf).1, ih (hk hf).2⟩⟩
  | unlock l k ih =>
      intro s' hr hi
      obtain ⟨hh, hg, hk⟩ := h s' hr hi
      exact ⟨hh, hg, ih hk⟩

/-- Interference cannot invalidate what is left to prove of a program. -/
theorem Holds.rely {p : T → Shared Sg S Q → Prop}
    (hp : ∀ r s s', P.Rely i s s' → p r s → p r s') {t : Prog Sg T} {s s' : Shared Sg S Q}
    (h : P.Holds i p t s) (hs : P.Rely i s s') : P.Holds i p t s' := by
  cases t with
  | ret r => exact hp r s s' hs h
  | op o k => exact fun u hr hi ha => h u (hs.trans hr) hi ha
  | lock l k => exact fun u hr hi => h u (hs.trans hr) hi
  | unlock l k => exact fun u hr hi => h u (hs.trans hr) hi

theorem holds_bind {U : Type} {p : U → Shared Sg S Q → Prop} (t : Prog Sg T) (f : T → Prog Sg U)
    (s : Shared Sg S Q) :
    P.Holds i p (t.bind f) s ↔ P.Holds i (fun r s => P.Holds i p (f r) s) t s := by
  induction t generalizing s with
  | ret r => exact Iff.rfl
  | op o k ih => simp only [Prog.bind, Holds, ih]
  | lock l k ih | unlock l k ih => simp only [Prog.bind, Holds, ih]

/-- A body under a lock: the lock is free when it is taken, and what the body
ends in must allow the guard to be dropped. -/
theorem Holds.locked {p : T → Shared Sg S Q → Prop} {l : Sg.Lock} {body : Prog Sg T}
    {s : Shared Sg S Q}
    (h : ∀ s', P.Rely i s s' → P.inv s' → P.waiting i l s' ∧
      (s'.held l = none → P.inv (s'.acquire i l) ∧
        P.Holds i (fun r u => ∀ u', P.Rely i u u' → P.inv u' →
          u'.held l = some i ∧ P.inv (u'.release l) ∧ p r (u'.release l))
          body (s'.acquire i l))) :
    P.Holds i p (Prog.locked l body) s := by
  intro s' hr hi
  obtain ⟨hw, hk⟩ := h s' hr hi
  refine ⟨hw, fun hf => ⟨(hk hf).1, ?_⟩⟩
  exact (holds_bind body _ _).mpr (hk hf).2

end Spec

end AiterCommerce.Concurrent
