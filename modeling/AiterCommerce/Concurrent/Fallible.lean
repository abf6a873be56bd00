import AiterCommerce.Concurrent.Soundness

namespace AiterCommerce.Concurrent

variable {Sg : Interface} {S Q R α β ε ε' : Type}

/-- A program that may stop with an error; the guards it holds are dropped. -/
abbrev Fallible (Sg : Interface) (ε α : Type) := ExceptT ε (Prog Sg) α

namespace Fallible

def perform (o : Sg.Op) : Fallible Sg ε (Sg.Resp o) := ExceptT.lift (Prog.perform o)

def locked (l : Sg.Lock) (body : Fallible Sg ε α) : Fallible Sg ε α :=
  ExceptT.mk (Prog.locked l (ExceptT.run body))

def mapErr (f : ε' → ε) : Except ε' α → Fallible Sg ε α
  | .ok a => pure a
  | .error e => throw (f e)

def okOr (e : ε) : Option α → Fallible Sg ε α
  | some a => pure a
  | none => throw e

def adaptErr (f : ε' → ε) (m : Fallible Sg ε' α) : Fallible Sg ε α :=
  ExceptT.mk (Prog.bind (ExceptT.run m) (fun r => .ret (r.mapError f)))

theorem adaptErr_bind (f : ε' → ε) (m : Fallible Sg ε' α) (g : α → Fallible Sg ε' β) :
    adaptErr f (m >>= g) = adaptErr f m >>= fun a => adaptErr f (g a) := by
  change Prog.bind (Prog.bind (ExceptT.run m) (ExceptT.bindCont g)) _ =
    Prog.bind (Prog.bind (ExceptT.run m) _) (ExceptT.bindCont _)
  rw [Prog.bind_assoc, Prog.bind_assoc]
  congr 1
  funext r
  cases r <;> rfl

section Run

variable (exec : (o : Sg.Op) → S → Sg.Resp o × S)

def run (m : Fallible Sg ε α) (s : S) : Except ε α × S := Prog.run exec (ExceptT.run m) s

@[simp] theorem run_pure (a : α) (s : S) :
    run exec (pure a : Fallible Sg ε α) s = (.ok a, s) := rfl

@[simp] theorem run_throw (e : ε) (s : S) :
    run exec (throw e : Fallible Sg ε α) s = (.error e, s) := rfl

theorem run_bind (m : Fallible Sg ε α) (f : α → Fallible Sg ε β) (s : S) :
    run exec (m >>= f) s = match run exec m s with
      | (.ok a, s') => run exec (f a) s'
      | (.error e, s') => (.error e, s') := by
  change Prog.run exec (Prog.bind (ExceptT.run m) (ExceptT.bindCont f)) s = _
  rw [Prog.run_bind, run]
  obtain ⟨r, s'⟩ := Prog.run exec (ExceptT.run m) s
  cases r <;> rfl

@[simp] theorem run_perform (o : Sg.Op) (s : S) :
    run exec (perform o : Fallible Sg ε _) s = (.ok (exec o s).1, (exec o s).2) := rfl

@[simp] theorem run_locked (l : Sg.Lock) (m : Fallible Sg ε α) (s : S) :
    run exec (locked l m) s = run exec m s :=
  Prog.run_locked exec l _ s

@[simp] theorem run_mapErr (f : ε' → ε) (x : Except ε' α) (s : S) :
    run exec (mapErr f x : Fallible Sg ε α) s = (x.mapError f, s) := by
  cases x <;> rfl

@[simp] theorem run_okOr (e : ε) (x : Option α) (s : S) :
    run exec (okOr e x : Fallible Sg ε α) s = (x.elim (.error e) .ok, s) := by
  cases x <;> rfl

@[simp] theorem run_adaptErr (f : ε' → ε) (m : Fallible Sg ε' α) (s : S) :
    run exec (adaptErr f m) s = ((run exec m s).1.mapError f, (run exec m s).2) :=
  Prog.run_bind exec _ _ s

variable {exec} {s s' : S} {b : β}

theorem run_pure_eq_ok {a : β} :
    run exec (pure a : Fallible Sg ε β) s = (.ok b, s') ↔ a = b ∧ s = s' := by
  simp

theorem run_bind_eq_ok {m : Fallible Sg ε α} {f : α → Fallible Sg ε β} :
    run exec (m >>= f) s = (.ok b, s') ↔
      ∃ a s₁, run exec m s = (.ok a, s₁) ∧ run exec (f a) s₁ = (.ok b, s') := by
  rw [run_bind]
  cases run exec m s with
  | mk r s₁ => cases r <;> simp

theorem run_adaptErr_bind_eq_ok {g : ε' → ε} {m : Fallible Sg ε' α} {f : α → Fallible Sg ε β} :
    run exec (adaptErr g m >>= f) s = (.ok b, s') ↔
      ∃ a s₁, run exec m s = (.ok a, s₁) ∧ run exec (f a) s₁ = (.ok b, s') := by
  rw [run_bind, run_adaptErr]
  cases run exec m s with
  | mk r s₁ => cases r <;> simp [Except.mapError]

theorem run_mapErr_bind_eq_ok {g : ε' → ε} {x : Except ε' α} {f : α → Fallible Sg ε β} :
    run exec (mapErr g x >>= f) s = (.ok b, s') ↔
      ∃ a, x = .ok a ∧ run exec (f a) s = (.ok b, s') := by
  rw [run_bind, run_mapErr]
  cases x <;> simp [Except.mapError]

theorem run_okOr_bind_eq_ok {e : ε} {x : Option α} {f : α → Fallible Sg ε β} :
    run exec (okOr e x >>= f) s = (.ok b, s') ↔
      ∃ a, x = some a ∧ run exec (f a) s = (.ok b, s') := by
  rw [run_bind, run_okOr]
  cases x <;> simp

end Run

section Respects

variable {may : Set Sg.Lock → Sg.Op → Prop} {H : Set Sg.Lock}

def Respects (may : Set Sg.Lock → Sg.Op → Prop) (H : Set Sg.Lock) (m : Fallible Sg ε α) : Prop :=
  Prog.Respects may H H (ExceptT.run m)

theorem Respects.pure (a : α) : Respects may H (Pure.pure a : Fallible Sg ε α) := rfl

theorem Respects.throw (e : ε) : Respects may H (throw e : Fallible Sg ε α) := rfl

theorem Respects.bind {m : Fallible Sg ε α} {f : α → Fallible Sg ε β} (hm : Respects may H m)
    (hf : ∀ a, Respects may H (f a)) : Respects may H (m >>= f) := by
  refine Prog.Respects.bind (f := ExceptT.bindCont f) hm (fun r => ?_)
  cases r with
  | ok a => exact hf a
  | error e => rfl

theorem Respects.perform {o : Sg.Op} (h : may H o) :
    Respects may H (perform o : Fallible Sg ε _) :=
  ⟨h, fun _ => rfl⟩

theorem Respects.locked {l : Sg.Lock} {m : Fallible Sg ε α} (hl : l ∉ H)
    (h : Respects may (insert l H) m) : Respects may H (locked l m) :=
  Prog.Respects.locked hl h

theorem Respects.mapErr (f : ε' → ε) (x : Except ε' α) :
    Respects may H (mapErr f x : Fallible Sg ε α) := by
  cases x <;> rfl

theorem Respects.mapErr_bind (f : ε' → ε) (x : Except ε' α) {g : α → Fallible Sg ε β}
    (hg : ∀ a, x = .ok a → Respects may H (g a)) :
    Respects may H (Fallible.mapErr f x >>= g : Fallible Sg ε β) := by
  cases x with
  | ok a => exact hg a rfl
  | error e => rfl

theorem Respects.okOr (e : ε) (x : Option α) : Respects may H (okOr e x : Fallible Sg ε α) := by
  cases x <;> rfl

theorem Respects.adaptErr {f : ε' → ε} {m : Fallible Sg ε' α} (h : Respects may H m) :
    Respects may H (adaptErr f m) :=
  Prog.Respects.bind h (fun _ => rfl)

end Respects

end Fallible

namespace Spec

open Fallible (perform locked mapErr okOr)

variable [DecidableEq Sg.Lock] [DecidableEq Q] {sys : System Sg S Q R} {P : Spec sys} {i : Name Q}

def Ensures (P : Spec sys) (i : Name Q) (post : Except ε α → Shared Sg S Q → Prop)
    (m : Fallible Sg ε α) (s : Shared Sg S Q) : Prop :=
  P.Holds i post (ExceptT.run m) s

theorem ensures_bind {post : Except ε β → Shared Sg S Q → Prop} (m : Fallible Sg ε α)
    (f : α → Fallible Sg ε β) (s : Shared Sg S Q) :
    P.Ensures i post (m >>= f) s ↔ P.Ensures i (fun r s' => match r with
      | .ok a => P.Ensures i post (f a) s'
      | .error e => post (.error e) s') m s := by
  change P.Holds i post (Prog.bind (ExceptT.run m) (ExceptT.bindCont f)) s ↔ _
  rw [holds_bind, Ensures]
  have h (r : Except ε α) (s' : Shared Sg S Q) : P.Holds i post (ExceptT.bindCont f r) s' ↔
      (match r with
        | .ok a => P.Ensures i post (f a) s'
        | .error e => post (.error e) s') := by
    cases r <;> exact Iff.rfl
  exact ⟨Holds.mono (fun r s' => (h r s').mp), Holds.mono (fun r s' => (h r s').mpr)⟩

theorem ensures_perform {o : Sg.Op} {post : Except ε (Sg.Resp o) → Shared Sg S Q → Prop}
    (s : Shared Sg S Q) :
    P.Ensures i post (perform o) s ↔ ∀ s', P.Rely i s s' → P.inv s' → P.allow i o s' →
      (∀ l, P.locks.need o l → s'.held l = some i) ∧ P.Good s' (s'.perform sys.exec i o) ∧
        post (.ok (sys.exec o s'.data).1) (s'.perform sys.exec i o) := Iff.rfl

theorem ensures_locked {l : Sg.Lock} {post : Except ε α → Shared Sg S Q → Prop}
    {m : Fallible Sg ε α} (s : Shared Sg S Q) :
    P.Ensures i post (locked l m) s ↔ ∀ s', P.Rely i s s' → P.inv s' → P.waiting i l s' ∧
      (s'.held l = none → P.inv (s'.acquire i l) ∧
        P.Ensures i (fun r u => ∀ u', P.Rely i u u' → P.inv u' →
          u'.held l = some i ∧ P.inv (u'.release l) ∧ post r (u'.release l))
          m (s'.acquire i l)) := by
  simp only [Ensures, locked, ExceptT.run_mk, Prog.locked, Holds, holds_bind]

theorem ensures_adaptErr {post : Except ε α → Shared Sg S Q → Prop} (f : ε' → ε)
    (m : Fallible Sg ε' α) (s : Shared Sg S Q) :
    P.Ensures i post (Fallible.adaptErr f m) s ↔
      P.Ensures i (fun r u => post (r.mapError f) u) m s := by
  simp only [Ensures, Fallible.adaptErr, ExceptT.run_mk, holds_bind, Holds]

theorem ensures_okOr_bind {post : Except ε α → Shared Sg S Q → Prop} (e : ε) (x : Option β)
    (f : β → Fallible Sg ε α) (s : Shared Sg S Q) :
    P.Ensures i post (okOr e x >>= f) s ↔ match x with
      | some a => P.Ensures i post (f a) s
      | none => post (.error e) s := by
  cases x <;> exact Iff.rfl

theorem ensures_mapErr_bind {post : Except ε α → Shared Sg S Q → Prop} (g : ε' → ε)
    (x : Except ε' β) (f : β → Fallible Sg ε α) (s : Shared Sg S Q) :
    P.Ensures i post (mapErr g x >>= f) s ↔ match x with
      | .ok a => P.Ensures i post (f a) s
      | .error e => post (.error (g e)) s := by
  cases x <;> exact Iff.rfl

theorem ensures_perform_bind {post : Except ε α → Shared Sg S Q → Prop} (o : Sg.Op)
    (f : Sg.Resp o → Fallible Sg ε α) (s : Shared Sg S Q) :
    P.Ensures i post (perform o >>= f) s ↔ ∀ s', P.Rely i s s' → P.inv s' → P.allow i o s' →
      (∀ l, P.locks.need o l → s'.held l = some i) ∧ P.Good s' (s'.perform sys.exec i o) ∧
        P.Ensures i post (f (sys.exec o s'.data).1) (s'.perform sys.exec i o) := Iff.rfl

/-- Operations of task `i` that keep the invariant, and what `K` says the task
knows, whatever came before. -/
structure Harmless (P : Spec sys) (i : Name Q) (K : Shared Sg S Q → Prop)
    (may : Set Sg.Lock → Sg.Op → Prop) : Prop where
  stable : ∀ s s', P.Rely i s s' → K s → K s'
  perform : ∀ H o s, may H o → (∀ l ∈ H, s.held l = some i) → P.inv s → K s → P.allow i o s →
    (∀ l, P.locks.need o l → s.held l = some i) ∧ P.Good s (s.perform sys.exec i o) ∧
      K (s.perform sys.exec i o)
  waiting : ∀ l s, P.inv s → K s → P.waiting i l s
  acquire : ∀ l s, P.inv s → K s → s.held l = none → P.inv (s.acquire i l) ∧ K (s.acquire i l)
  release : ∀ l s, P.inv s → K s → s.held l = some i → P.inv (s.release l) ∧ K (s.release l)

/-- The invariant is about data and history, not about who holds which lock. -/
def LockFree (P : Spec sys) : Prop := ∀ s held, P.inv s → P.inv { s with held := held }

/-- What nobody can make false as the data evolves. -/
def Lasting (P : Spec sys) (K : Shared Sg S Q → Prop) : Prop :=
  ∀ s s', P.evolves s.data s'.data → s.history <:+ s'.history → K s → K s'

theorem Harmless.of_lasting {K : Shared Sg S Q → Prop} {may : Set Sg.Lock → Sg.Op → Prop}
    (hfree : P.LockFree) (hK : P.Lasting K) (hwait : ∀ l s, P.waiting i l s)
    (hop : ∀ H o s, may H o → P.inv s → K s → P.allow i o s →
      (∀ l, P.locks.need o l → l ∈ H) ∧ P.Good s (s.perform sys.exec i o)) :
    P.Harmless i K may where
  stable s s' hr h := hK s s' hr.evolves hr.history h
  perform H o s hm hH hi hk ha := by
    obtain ⟨hn, hg⟩ := hop H o s hm hi hk ha
    exact ⟨fun l hl => hH l (hn l hl), hg, hK s _ hg.evolves (List.suffix_cons _ _) hk⟩
  waiting l s _ _ := hwait l s
  acquire _ s hi hk _ := ⟨hfree s _ hi, hK s _ (P.evolves_refl _) List.suffix_rfl hk⟩
  release _ s hi hk _ := ⟨hfree s _ hi, hK s _ (P.evolves_refl _) List.suffix_rfl hk⟩

theorem Harmless.unlock {K post : Shared Sg S Q → Prop} {may : Set Sg.Lock → Sg.Op → Prop}
    {l : Sg.Lock} {s : Shared Sg S Q} (hP : P.Harmless i K may) (hpost : ∀ u, K u → post u)
    (hl : s.held l = some i) (hK : K s) : ∀ u, P.Rely i s u → P.inv u →
      u.held l = some i ∧ P.inv (u.release l) ∧ post (u.release l) := by
  intro u hr hi
  have hlu : u.held l = some i := (hr.held l).mpr hl
  obtain ⟨hi', hK'⟩ := hP.release l u hi (hP.stable s u hr hK) hlu
  exact ⟨hlu, hi', hpost _ hK'⟩

/-- A program of harmless operations is within the specification. -/
theorem Holds.of_respects {T : Type} {K : Shared Sg S Q → Prop}
    {may : Set Sg.Lock → Sg.Op → Prop} {H H' : Set Sg.Lock} {t : Prog Sg T} {s : Shared Sg S Q}
    (hP : P.Harmless i K may) (h : t.Respects may H' H) (hK : K s)
    (hH : ∀ l ∈ H, s.held l = some i) :
    P.Holds i (fun _ u => K u ∧ ∀ l ∈ H', u.held l = some i) t s := by
  induction t generalizing H s with
  | ret r =>
      obtain rfl : H = H' := h
      exact ⟨hK, hH⟩
  | op o k ih =>
      intro s' hr hi ha
      have hH' : ∀ l ∈ H, s'.held l = some i := fun l hl => (hr.held l).mpr (hH l hl)
      obtain ⟨hn, hg, hK'⟩ := hP.perform H o s' h.1 hH' hi (hP.stable s s' hr hK) ha
      exact ⟨hn, hg, ih _ (h.2 _) hK' hH'⟩
  | lock l k ih =>
      intro s' hr hi
      have hH' : ∀ m ∈ H, s'.held m = some i := fun m hm => (hr.held m).mpr (hH m hm)
      have hK' := hP.stable s s' hr hK
      refine ⟨hP.waiting l s' hi hK', fun hf => ?_⟩
      obtain ⟨hi', hK''⟩ := hP.acquire l s' hi hK' hf
      refine ⟨hi', ih h.2 hK'' (fun m hm => ?_)⟩
      rcases Set.mem_insert_iff.mp hm with rfl | hm
      · exact s'.acquire_held_self i m
      · by_cases hml : m = l
        · subst hml; exact s'.acquire_held_self i m
        · rw [s'.acquire_held_ne i hml, hH' m hm]
  | unlock l k ih =>
      intro s' hr hi
      have hl : s'.held l = some i := (hr.held l).mpr (hH l h.1)
      obtain ⟨hi', hK'⟩ := hP.release l s' hi (hP.stable s s' hr hK) hl
      refine ⟨hl, hi', ih h.2 hK' (fun m hm => ?_)⟩
      rw [s'.release_held_ne hm.2, (hr.held m).mpr (hH m hm.1)]

section Harmless

variable {K : Shared Sg S Q → Prop} {may : Set Sg.Lock → Sg.Op → Prop} {H : Set Sg.Lock}
  {s : Shared Sg S Q}

theorem Ensures.of_respects {m : Fallible Sg ε α} (hP : P.Harmless i K may)
    (h : Fallible.Respects may H m) (hK : K s) (hH : ∀ l ∈ H, s.held l = some i) :
    P.Ensures i (fun _ u => K u ∧ ∀ l ∈ H, u.held l = some i) m s :=
  Holds.of_respects hP h hK hH

theorem Ensures.mono {p q : Except ε α → Shared Sg S Q → Prop} {m : Fallible Sg ε α}
    (hpq : ∀ r s, p r s → q r s) (h : P.Ensures i p m s) : P.Ensures i q m s :=
  Holds.mono hpq h

theorem Ensures.perform_bind {post : Except ε α → Shared Sg S Q → Prop} {o : Sg.Op}
    {f : Sg.Resp o → Fallible Sg ε α} (hP : P.Harmless i K may) (h : may H o) (hK : K s)
    (hH : ∀ l ∈ H, s.held l = some i)
    (rest : ∀ s', P.Rely i s s' → P.inv s' → K s' → (∀ l ∈ H, s'.held l = some i) →
      K (s'.perform sys.exec i o) →
        P.Ensures i post (f (sys.exec o s'.data).1) (s'.perform sys.exec i o)) :
    P.Ensures i post (perform o >>= f) s := by
  rw [ensures_bind, ensures_perform]
  intro s' hr hi ha
  have hH' : ∀ l ∈ H, s'.held l = some i := fun l hl => (hr.held l).mpr (hH l hl)
  have hK' := hP.stable s s' hr hK
  obtain ⟨hn, hg, hK''⟩ := hP.perform H o s' h hH' hi hK' ha
  exact ⟨hn, hg, rest s' hr hi hK' hH' hK''⟩

theorem Ensures.locked_body {l : Sg.Lock} {m : Fallible Sg ε α} (hP : P.Harmless i K may)
    (hl : l ∉ H) (hK : K s) (hH : ∀ n ∈ H, s.held n = some i)
    (body : ∀ s', P.inv s' → K s' → (∀ n ∈ insert l H, s'.held n = some i) →
      P.Ensures i (fun _ u => K u ∧ ∀ n ∈ insert l H, u.held n = some i) m s') :
    P.Ensures i (fun _ u => K u ∧ ∀ n ∈ H, u.held n = some i) (locked l m) s := by
  rw [ensures_locked]
  intro s' hr hi
  have hK' := hP.stable s s' hr hK
  refine ⟨hP.waiting l s' hi hK', fun hf => ?_⟩
  obtain ⟨hi', hK''⟩ := hP.acquire l s' hi hK' hf
  refine ⟨hi', (body _ hi' hK'' (fun n hn => ?_)).mono ?_⟩
  · rcases Set.mem_insert_iff.mp hn with rfl | hn
    · exact s'.acquire_held_self i n
    · by_cases hnl : n = l
      · subst hnl; exact s'.acquire_held_self i n
      · rw [s'.acquire_held_ne i hnl, hr.held, hH n hn]
  · rintro r u ⟨hKu, hHu⟩ u' hru hiu
    have hlu : u'.held l = some i := (hru.held l).mpr (hHu l (Set.mem_insert l H))
    obtain ⟨hir, hKr⟩ := hP.release l u' hiu (hP.stable u u' hru hKu) hlu
    refine ⟨hlu, hir, hKr, fun n hn => ?_⟩
    have hnl : n ≠ l := by rintro rfl; exact hl hn
    rw [u'.release_held_ne hnl, hru.held]
    exact hHu n (Set.mem_insert_of_mem l hn)

theorem Ensures.locked_perform_bind {post : Except ε α → Shared Sg S Q → Prop} {l : Sg.Lock}
    {o : Sg.Op} {f : Sg.Resp o → Fallible Sg ε α} (hP : P.Harmless i K may)
    (h : may (insert l H) o) (hl : l ∉ H) (hK : K s) (hH : ∀ n ∈ H, s.held n = some i)
    (rest : ∀ s' u, P.inv s' → P.allow i o s' → P.evolves s.data s'.data → s.history <:+ s'.history →
      P.evolves s'.data u.data → (s'.perform sys.exec i o).history <:+ u.history → K u →
        (∀ n ∈ H, u.held n = some i) → P.Ensures i post (f (sys.exec o s'.data).1) u) :
    P.Ensures i post (locked l (perform o) >>= f) s := by
  have hne (n : Sg.Lock) (hn : n ∈ H) : n ≠ l := by rintro rfl; exact hl hn
  rw [ensures_bind, ensures_locked]
  intro s1 hr1 hi1
  have hK1 := hP.stable s s1 hr1 hK
  refine ⟨hP.waiting l s1 hi1 hK1, fun hf => ?_⟩
  obtain ⟨hi1', hK1'⟩ := hP.acquire l s1 hi1 hK1 hf
  refine ⟨hi1', (ensures_perform _).mpr (fun s2 hr2 hi2 ha => ?_)⟩
  have hH2 : ∀ n ∈ insert l H, s2.held n = some i := by
    intro n hn
    rw [hr2.held]
    rcases Set.mem_insert_iff.mp hn with rfl | hn
    · exact s1.acquire_held_self i n
    · rw [s1.acquire_held_ne i (hne n hn), hr1.held, hH n hn]
  obtain ⟨hneed, hg, hK2⟩ := hP.perform _ o s2 h hH2 hi2 (hP.stable _ s2 hr2 hK1') ha
  refine ⟨hneed, hg, fun u hru hiu => ?_⟩
  have hlu : u.held l = some i := (hru.held l).mpr (hH2 l (Set.mem_insert l H))
  obtain ⟨hir, hKr⟩ := hP.release l u hiu (hP.stable _ u hru hK2) hlu
  refine ⟨hlu, hir, rest s2 (u.release l) hi2 ha (P.evolves_trans hr1.evolves hr2.evolves)
    (hr1.history.trans hr2.history) (P.evolves_trans hg.evolves hru.evolves) hru.history hKr
    (fun n hn => ?_)⟩
  rw [u.release_held_ne (hne n hn), hru.held]
  exact hH2 n (Set.mem_insert_of_mem l hn)

end Harmless

end Spec

end AiterCommerce.Concurrent
