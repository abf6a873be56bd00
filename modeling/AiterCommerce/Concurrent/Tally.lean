import AiterCommerce.Concurrent.Fallible
import AiterCommerce.Concurrent.Progress
import Mathlib.Algebra.BigOperators.Group.List.Basic
import Mathlib.Algebra.Order.BigOperators.Group.List
import Mathlib.Algebra.Ring.Nat

namespace AiterCommerce.Concurrent

variable {Sg Sg' : Interface} {S Q R T M α β ε ε' : Type} [AddCommMonoid M]

/-- What the operations of a task add up to: anywhere on its way, where it waits for a lock and
may be dropped, and where it returns. -/
structure Account (Sg : Interface) (R M : Type) where
  add : Sg.Op → M
  mid : M → Prop
  left : M → Prop
  post : M → R → Prop

namespace Account

abbrev upTo (K : Account Sg R M) (post : M → T → Prop) : Account Sg T M :=
  ⟨K.add, K.mid, K.left, post⟩

abbrev within (K : Account (Sg.sum Sg') R M) : Account Sg R M :=
  ⟨fun o => K.add (.inl o), K.mid, K.left, K.post⟩

end Account

namespace Prog

/-- With `m` behind it, the program keeps to the account wherever it may stop. -/
def Tallies : Account Sg R M → M → Prog Sg R → Prop
  | K, m, .ret r => K.post m r
  | K, m, .op o k => K.mid m ∧ ∀ x, (k x).Tallies K (m + K.add o)
  | K, m, .lock _ k => K.mid m ∧ K.left m ∧ k.Tallies K m
  | K, m, .unlock _ k => K.mid m ∧ k.Tallies K m

theorem tallies_bind {K : Account Sg T M} (t : Prog Sg R) (f : R → Prog Sg T) (m : M) :
    (t.bind f).Tallies K m ↔ t.Tallies (K.upTo (fun m r => (f r).Tallies K m)) m := by
  induction t generalizing m with
  | ret r => exact Iff.rfl
  | op o k ih => simp only [bind, Tallies, ih]
  | lock l k ih | unlock l k ih => simp only [bind, Tallies, ih]

theorem tallies_inl {K : Account (Sg.sum Sg') R M} (t : Prog Sg R) (m : M) :
    t.inl.Tallies K m ↔ t.Tallies K.within m := by
  induction t generalizing m with
  | ret r => exact Iff.rfl
  | op o k ih =>
      apply and_congr_right
      intro _
      apply forall_congr'
      intro x
      exact ih x _
  | lock l k ih =>
      apply and_congr_right
      intro _
      exact and_congr_right (fun _ => ih m)
  | unlock l k ih => exact and_congr_right (fun _ => ih m)

theorem tallies_locked {K : Account Sg R M} (l : Sg.Lock) (body : Prog Sg R) (m : M) :
    (locked l body).Tallies K m ↔
      K.mid m ∧ K.left m ∧ body.Tallies (K.upTo (fun m r => K.mid m ∧ K.post m r)) m := by
  apply and_congr_right
  intro _
  apply and_congr_right
  intro _
  exact tallies_bind body _ m

theorem Tallies.mono {K : Account Sg R M} {post : M → R → Prop} {t : Prog Sg R} {m : M}
    (hpost : ∀ m r, K.post m r → post m r) (h : t.Tallies K m) : t.Tallies (K.upTo post) m := by
  induction t generalizing m with
  | ret r => exact hpost m r h
  | op o k ih => exact ⟨h.1, fun x => ih x (h.2 x)⟩
  | lock l k ih => exact ⟨h.1, h.2.1, ih h.2.2⟩
  | unlock l k ih => exact ⟨h.1, ih h.2⟩

theorem All.of_bind {A : Sg.Op → Prop} {t : Prog Sg R} {f : R → Prog Sg T}
    (h : (t.bind f).All A) : t.All A := by
  induction t with
  | ret r => trivial
  | op o k ih => exact ⟨h.1, fun x => ih x (h.2 x)⟩
  | lock l k ih | unlock l k ih => exact ih h

theorem All.tallies {K : Account Sg R M} {t : Prog Sg R}
    (h : t.All (fun o => K.add o = 0)) {m : M} (hmid : K.mid m) (hleft : K.left m)
    (hpost : ∀ r, K.post m r) : t.Tallies K m := by
  induction t with
  | ret r => exact hpost r
  | op o k ih =>
      refine ⟨hmid, fun x => ?_⟩
      rw [h.1, add_zero]
      exact ih x (h.2 x)
  | lock l k ih => exact ⟨hmid, hleft, ih h⟩
  | unlock l k ih => exact ⟨hmid, ih h⟩

end Prog

namespace Fallible

def Tallies (K : Account Sg (Except ε α) M) (m : M) (x : Fallible Sg ε α) : Prop :=
  Prog.Tallies K m (ExceptT.run x)

variable {m : M}

theorem tallies_mapErr_bind {K : Account Sg (Except ε β) M} (g : ε' → ε) (x : Except ε' α)
    (f : α → Fallible Sg ε β) : Tallies K m (mapErr g x >>= f) ↔
      match x with
      | .ok a => Tallies K m (f a)
      | .error e => K.post m (.error (g e)) := by
  cases x <;> exact Iff.rfl

theorem tallies_okOr_bind {K : Account Sg (Except ε β) M} (e : ε) (x : Option α)
    (f : α → Fallible Sg ε β) : Tallies K m (okOr e x >>= f) ↔
      match x with
      | some a => Tallies K m (f a)
      | none => K.post m (.error e) := by
  cases x <;> exact Iff.rfl

theorem tallies_perform_bind {K : Account Sg (Except ε β) M} (o : Sg.Op)
    (f : Sg.Resp o → Fallible Sg ε β) : Tallies K m (perform o >>= f) ↔
      K.mid m ∧ ∀ x, Tallies K (m + K.add o) (f x) := Iff.rfl

theorem tallies_locked {K : Account Sg (Except ε α) M} (l : Sg.Lock) (x : Fallible Sg ε α) :
    Tallies K m (locked l x) ↔
      K.mid m ∧ K.left m ∧ Tallies (K.upTo (fun m r => K.mid m ∧ K.post m r)) m x :=
  Prog.tallies_locked l _ m

theorem tallies_bind {K : Account Sg (Except ε β) M} (x : Fallible Sg ε α)
    (f : α → Fallible Sg ε β) : Tallies K m (x >>= f) ↔
      Tallies (K.upTo (fun m r => match r with
        | .ok a => Tallies K m (f a)
        | .error e => K.post m (.error e))) m x := by
  refine (Prog.tallies_bind _ _ m).trans ?_
  have hpost : (fun m (r : Except ε α) => Prog.Tallies K m (ExceptT.bindCont f r)) =
      fun m r => match r with
        | .ok a => Tallies K m (f a)
        | .error e => K.post m (.error e) := by
    funext m r
    cases r <;> rfl
  exact Iff.of_eq (congrArg (fun post => Prog.Tallies (K.upTo post) m (ExceptT.run x)) hpost)

theorem tallies_adaptErr_bind {K : Account Sg (Except ε β) M} (g : ε' → ε)
    (x : Fallible Sg ε' α) (f : α → Fallible Sg ε β) : Tallies K m (adaptErr g x >>= f) ↔
      Tallies (K.upTo (fun m r => match r with
        | .ok a => Tallies K m (f a)
        | .error e => K.post m (.error (g e)))) m x := by
  rw [tallies_bind]
  refine (Prog.tallies_bind _ _ m).trans ?_
  have hpost : (fun m (r : Except ε' α) => Prog.Tallies (K.upTo (fun m r => match r with
      | .ok a => Tallies K m (f a)
      | .error e => K.post m (.error e))) m (.ret (r.mapError g))) =
        fun m r => match r with
          | .ok a => Tallies K m (f a)
          | .error e => K.post m (.error (g e)) := by
    funext m r
    cases r <;> rfl
  exact Iff.of_eq (congrArg (fun post => Prog.Tallies (K.upTo post) m (ExceptT.run x)) hpost)

end Fallible

section Parts

variable {A B : Type} {r : A → M → Prop} {xs : List A} {ms : List M}

theorem forall₂_set (h : List.Forall₂ r xs ms) {n : Nat} {x : A} (hn : xs[n]? = some x) :
    ∃ m, r x m ∧ ∀ x' a, r x' (m + a) →
      ∃ ms', List.Forall₂ r (xs.set n x') ms' ∧ ms'.sum = ms.sum + a := by
  induction h generalizing n with
  | nil => cases hn
  | @cons y m ys ms hy hys ih =>
      cases n with
      | zero =>
          obtain rfl := Option.some.inj hn
          refine ⟨m, hy, fun x' a hx' => ⟨(m + a) :: ms, .cons hx' hys, ?_⟩⟩
          rw [List.sum_cons, List.sum_cons, add_right_comm]
      | succ n =>
          obtain ⟨m', hx, hset⟩ := ih hn
          refine ⟨m', hx, fun x' a hx' => ?_⟩
          obtain ⟨ms', hms', hsum⟩ := hset x' a hx'
          exact ⟨m :: ms', .cons hy hms', by rw [List.sum_cons, List.sum_cons, hsum, add_assoc]⟩

theorem sum_le_of_forall₂ {r : A → B → Prop} {ys : List B} (h : List.Forall₂ r xs ys)
    {f : A → Nat} {g : B → Nat} (hle : ∀ x y, r x y → f x ≤ g y) :
    (xs.map f).sum ≤ (ys.map g).sum := by
  induction h with
  | nil => exact le_rfl
  | cons hxy _ ih => exact Nat.add_le_add (hle _ _ hxy) ih

end Parts

/-- What is behind a task keeps to the account of its request. -/
def Proc.Keeps (K : Q → Account Sg R M) (p : Proc Sg Q R) (m : M) : Prop :=
  match p.rest with
  | some t => t.Tallies (K p.request) m
  | none => (K p.request).left m

def Proc.credit (f : Q → R → Nat) (p : Proc Sg Q R) : Nat :=
  match p.rest with
  | some (.ret r) => f p.request r
  | _ => 0

/-- One for a task that has neither answered nor been dropped. -/
def Proc.pending (p : Proc Sg Q R) : Nat :=
  match p.rest with
  | some (.ret _) | none => 0
  | _ => 1

namespace World

def answered (f : Q → R → Nat) (c : World Sg S Q R) : Nat := (c.procs.map (Proc.credit f)).sum

def underWay (c : World Sg S Q R) : Nat := (c.procs.map Proc.pending).sum

theorem underWay_eq_zero {c : World Sg S Q R} (h : ∀ n, ¬ System.Unfinished c n) :
    c.underWay = 0 := by
  apply List.sum_eq_zero
  intro k hk
  obtain ⟨⟨q, rest⟩, hp, rfl⟩ := List.mem_map.mp hk
  obtain ⟨n, hn⟩ := List.mem_iff_getElem?.mp hp
  cases rest with
  | none => rfl
  | some t =>
      cases t with
      | ret r => rfl
      | op o k | lock l k | unlock l k =>
          exact absurd ⟨q, _, hn, fun r hr => by cases hr⟩ (h n)

end World

section Runs

variable [DecidableEq Sg.Lock] [DecidableEq Q] {sys : System Sg S Q R} {K : Q → Account Sg R M}
  {add : Sg.Op → M} {rel : S → M → Prop} {c c' : World Sg S Q R}

/-- The tasks have their parts in what the data shows. -/
structure Tallied (K : Q → Account Sg R M) (rel : S → M → Prop) (c : World Sg S Q R)
    (parts : List M) : Prop where
  keeps : List.Forall₂ (Proc.Keeps K) c.procs parts
  shown : rel c.shared.data parts.sum

theorem Tallied.next (hK : ∀ q, (K q).add = add) (hhandler : ∀ q, (sys.handler q).Tallies (K q) 0)
    (hrel : ∀ o s m, rel s m → rel (sys.exec o s).2 (m + add o))
    {parts : List M} (hc : Tallied K rel c parts) {a : Action Q} (hn : sys.next c a = some c') :
    ∃ parts', Tallied K rel c' parts' := by
  cases a with
  | spawn q =>
      cases hn
      refine ⟨parts ++ [0], List.rel_append hc.keeps (.cons (hhandler q) .nil), ?_⟩
      rw [List.sum_append, List.sum_singleton, add_zero]
      exact hc.shown
  | step n =>
      simp only [System.next] at hn
      split at hn
      next q t hp =>
        obtain ⟨⟨s', t'⟩, hs, rfl⟩ := Option.map_eq_some_iff.mp hn
        obtain ⟨m, hm, hset⟩ := forall₂_set hc.keeps hp
        -- a lock taken or dropped adds nothing
        have quiet (ht : t'.Tallies (K q) m) (hd : s'.data = c.shared.data) :
            ∃ parts', Tallied K rel ⟨s', c.procs.set n ⟨q, some t'⟩⟩ parts' := by
          obtain ⟨parts', hkeeps, hsum⟩ := hset ⟨q, some t'⟩ 0 (by rw [add_zero]; exact ht)
          refine ⟨parts', hkeeps, ?_⟩
          rw [hsum, add_zero, hd]
          exact hc.shown
        rcases System.advance_cases hs with ⟨o, k, rfl, rfl, rfl⟩ | ⟨l, rfl | rfl, hd, -⟩
        · have ht : (k (sys.exec o c.shared.data).1).Tallies (K q) (m + add o) := hK q ▸ hm.2 _
          obtain ⟨parts', hkeeps, hsum⟩ := hset ⟨q, some (k (sys.exec o c.shared.data).1)⟩ _ ht
          refine ⟨parts', hkeeps, ?_⟩
          rw [hsum]
          exact hrel o _ _ hc.shown
        · exact quiet hm.2.2 hd
        · exact quiet hm.2 hd
      next => cases hn
  | drop n =>
      simp only [System.next] at hn
      split at hn
      next q l k hp =>
        cases hn
        obtain ⟨m, hm, hset⟩ := forall₂_set hc.keeps hp
        obtain ⟨parts', hkeeps, hsum⟩ := hset ⟨q, none⟩ 0 (by rw [add_zero]; exact hm.2.1)
        refine ⟨parts', hkeeps, ?_⟩
        rw [hsum, add_zero]
        exact hc.shown
      next => cases hn

/-- Whatever the schedule, and whoever is dropped, the data shows what the tasks have added. -/
theorem System.Runs.tallied {A : World Sg S Q R → Action Q → Prop} (hK : ∀ q, (K q).add = add)
    (hhandler : ∀ q, (sys.handler q).Tallies (K q) 0)
    (hrel : ∀ o s m, rel s m → rel (sys.exec o s).2 (m + add o)) {d : S}
    (hd : rel d 0) (h : sys.Runs A (.start d) c) : ∃ parts, Tallied K rel c parts := by
  refine h.invariant (I := fun c => ∃ parts, Tallied K rel c parts) ?_ ⟨[], .nil, hd⟩
  rintro w a w' ⟨parts, hw⟩ - hn
  exact hw.next hK hhandler hrel hn

omit [DecidableEq Sg.Lock] [DecidableEq Q] in
/-- A counter that every task raises by one at most, and by what its answer counts for when it
has answered: it shows all the answers, and no more than those and the tasks under way. -/
theorem Tallied.counted {parts : List M} (hc : Tallied K rel c parts) (φ : M →+ Nat)
    {f : Q → R → Nat} (hmid : ∀ q m, (K q).mid m → φ m ≤ 1)
    (hleft : ∀ q m, (K q).left m → φ m = 0) (hpost : ∀ q m r, (K q).post m r → φ m = f q r) :
    c.answered f ≤ φ parts.sum ∧ φ parts.sum ≤ c.answered f + c.underWay := by
  have part (p : Proc Sg Q R) (m : M) (h : p.Keeps K m) :
      p.credit f ≤ φ m ∧ φ m ≤ p.credit f + p.pending := by
    obtain ⟨q, rest⟩ := p
    cases rest with
    | none =>
        have hm : φ m = 0 := hleft q m h
        rw [hm]
        exact ⟨le_rfl, Nat.zero_le _⟩
    | some t =>
        cases t with
        | ret r =>
            have hm : φ m = f q r := hpost q m r h
            rw [hm]
            exact ⟨le_rfl, le_rfl⟩
        | op o k | lock l k | unlock l k => exact ⟨Nat.zero_le _, hmid q m h.1⟩
  have hsum : φ parts.sum = (parts.map φ).sum := map_list_sum φ parts
  have hboth : (c.procs.map (fun p => p.credit f + p.pending)).sum = c.answered f + c.underWay :=
    List.sum_map_add
  rw [hsum, ← hboth]
  exact ⟨sum_le_of_forall₂ hc.keeps (fun p m h => (part p m h).1),
    sum_le_of_forall₂ hc.keeps.flip (fun m p h => (part p m h).2)⟩

omit [DecidableEq Sg.Lock] [DecidableEq Q] in
theorem Tallied.le {parts : List M} (hc : Tallied K rel c parts) (φ ψ : M →+ Nat)
    (hkeeps : ∀ p m, p ∈ c.procs → p.Keeps K m → φ m ≤ ψ m) : φ parts.sum ≤ ψ parts.sum := by
  rw [map_list_sum φ, map_list_sum ψ]
  obtain ⟨h, -⟩ := hc
  generalize c.procs = procs at h hkeeps
  induction h with
  | nil => exact le_rfl
  | cons hp _ ih =>
      rw [List.map_cons, List.map_cons, List.sum_cons, List.sum_cons]
      exact Nat.add_le_add (hkeeps _ _ List.mem_cons_self hp)
        (ih (fun p m hp' => hkeeps p m (List.mem_cons_of_mem _ hp')))

end Runs

end AiterCommerce.Concurrent
