import AiterCommerce.Concurrent.Progress
import Mathlib.Algebra.Order.BigOperators.Group.Finset

namespace AiterCommerce.Concurrent

variable {Sg Sg' : Interface} {S Q R T α β ε ε' ι : Type}

namespace Prog

/-- The program returns after at most so many steps, whatever its operations answer. -/
def Takes : Nat → Prog Sg R → Prop
  | _, .ret _ => True
  | 0, _ => False
  | n + 1, .op _ k => ∀ x, (k x).Takes n
  | n + 1, .lock _ k | n + 1, .unlock _ k => k.Takes n

variable {m n : Nat}

theorem takes_ret (n : Nat) (r : R) : (.ret r : Prog Sg R).Takes n := by
  cases n <;> trivial

theorem Takes.mono {t : Prog Sg R} (h : t.Takes m) (hmn : m ≤ n) : t.Takes n := by
  induction t generalizing m n with
  | ret r => exact takes_ret n r
  | op o k ih =>
      cases m with
      | zero => exact h.elim
      | succ m =>
          obtain ⟨n, rfl⟩ := Nat.exists_eq_add_of_lt hmn
          exact fun x => ih x (h x) (Nat.le_add_right m n)
  | lock l k ih | unlock l k ih =>
      cases m with
      | zero => exact h.elim
      | succ m =>
          obtain ⟨n, rfl⟩ := Nat.exists_eq_add_of_lt hmn
          exact ih h (Nat.le_add_right m n)

theorem Takes.bind {t : Prog Sg R} {f : R → Prog Sg T} (ht : t.Takes m)
    (hf : ∀ r, (f r).Takes n) : (t.bind f).Takes (n + m) := by
  induction t generalizing m with
  | ret r => exact (hf r).mono (Nat.le_add_right n m)
  | op o k ih =>
      cases m with
      | zero => exact ht.elim
      | succ m => exact fun x => ih x (ht x)
  | lock l k ih | unlock l k ih =>
      cases m with
      | zero => exact ht.elim
      | succ m => exact ih ht

theorem Takes.locked {l : Sg.Lock} {body : Prog Sg R} (h : body.Takes n) :
    (Prog.locked l body).Takes (n + 2) := by
  have hdrop (r : R) : (.unlock l (.ret r) : Prog Sg R).Takes 1 := trivial
  have hbody := h.bind hdrop
  rw [Nat.add_comm] at hbody
  exact hbody

theorem Takes.inl {t : Prog Sg R} (h : t.Takes n) : (t.inl : Prog (Sg.sum Sg') R).Takes n := by
  induction t generalizing n with
  | ret r => exact takes_ret n r
  | op o k ih =>
      cases n with
      | zero => exact h.elim
      | succ n => exact fun x => ih x (h x)
  | lock l k ih | unlock l k ih =>
      cases n with
      | zero => exact h.elim
      | succ n => exact ih h

end Prog

namespace Fallible

variable {n : Nat}

def Takes (n : Nat) (m : Fallible Sg ε α) : Prop := Prog.Takes n (ExceptT.run m)

theorem Takes.pure (a : α) : Takes n (Pure.pure a : Fallible Sg ε α) := Prog.takes_ret n _

theorem Takes.throw (e : ε) : Takes n (throw e : Fallible Sg ε α) := Prog.takes_ret n _

theorem Takes.mono {k : Nat} {m : Fallible Sg ε α} (h : Takes k m) (hkn : k ≤ n) : Takes n m :=
  Prog.Takes.mono h hkn

theorem Takes.bind {k : Nat} {m : Fallible Sg ε α} {f : α → Fallible Sg ε β} (hm : Takes k m)
    (hf : ∀ a, Takes n (f a)) : Takes (n + k) (m >>= f) := by
  apply @Prog.Takes.bind Sg _ _ k n _ (ExceptT.bindCont f) hm
  intro r
  cases r with
  | ok a => exact hf a
  | error e => exact Prog.takes_ret n _

theorem Takes.perform_bind (o : Sg.Op) {f : Sg.Resp o → Fallible Sg ε α} (hf : ∀ x, Takes n (f x)) :
    Takes (n + 1) (perform o >>= f) := hf

theorem Takes.locked {l : Sg.Lock} {m : Fallible Sg ε α} (h : Takes n m) :
    Takes (n + 2) (locked l m) := Prog.Takes.locked h

theorem Takes.locked_perform_bind (l : Sg.Lock) (o : Sg.Op) {f : Sg.Resp o → Fallible Sg ε α}
    (hf : ∀ x, Takes n (f x)) : Takes (n + 3) (Fallible.locked l (perform o) >>= f) := hf

theorem Takes.mapErr (g : ε' → ε) (x : Except ε' α) :
    Takes n (mapErr g x : Fallible Sg ε α) := by
  cases x <;> exact Prog.takes_ret n _

theorem Takes.mapErr_bind (g : ε' → ε) (x : Except ε' α) {f : α → Fallible Sg ε β}
    (hf : ∀ a, Takes n (f a)) : Takes n (Fallible.mapErr g x >>= f : Fallible Sg ε β) := by
  cases x with
  | ok a => exact hf a
  | error e => exact Prog.takes_ret n _

theorem Takes.okOr_bind (e : ε) (x : Option α) {f : α → Fallible Sg ε β}
    (hf : ∀ a, Takes n (f a)) : Takes n (Fallible.okOr e x >>= f : Fallible Sg ε β) := by
  cases x with
  | some a => exact hf a
  | none => exact Prog.takes_ret n _

theorem Takes.adaptErr {f : ε' → ε} {m : Fallible Sg ε' α} (h : Takes n m) :
    Takes n (adaptErr f m) := by
  have h' := @Prog.Takes.bind Sg _ _ n 0 (ExceptT.run m) (fun r => .ret (r.mapError f)) h
    (fun r => Prog.takes_ret 0 _)
  rwa [Nat.zero_add] at h'

end Fallible

def Action.isSpawn : Action Q → Bool
  | .spawn _ => true
  | _ => false

def Action.isStep : Action Q → Bool
  | .step _ => true
  | _ => false

namespace System

/-- So many steps are left to each task at most. -/
def Budget (f : Nat → Nat) (c : World Sg S Q R) : Prop :=
  ∀ n (q : Q) (t : Prog Sg R), c.procs[n]? = some ⟨q, some t⟩ → t.Takes (f n)

/-- Every task has answered or was dropped, and no lock is taken. -/
structure AtRest (c : World Sg S Q R) : Prop where
  finished : ∀ n, ¬ Unfinished c n
  free : ∀ l, c.shared.held l = none

variable [DecidableEq Sg.Lock] [DecidableEq Q] {sys : System Sg S Q R} {c c' : World Sg S Q R}

omit [DecidableEq Sg.Lock] [DecidableEq Q] in
theorem Budget.set {f : Nat → Nat} (hf : Budget f c) {n k : Nat} {q : Q} {s' : Shared Sg S Q}
    {rest : Option (Prog Sg R)} (ht : ∀ t, rest = some t → t.Takes k) :
    Budget (Function.update f n k) ⟨s', c.procs.set n ⟨q, rest⟩⟩ := by
  intro m q' u hm
  rw [List.getElem?_set] at hm
  split at hm
  next hnm =>
    subst hnm
    split at hm
    · cases hm
      rw [Function.update_self]
      exact ht u rfl
    · cases hm
  next hnm =>
    rw [Function.update_of_ne (Ne.symm hnm)]
    exact hf m q' u hm

/-- Each action that lets nobody in spends something of what is left to one task. -/
theorem Budget.next {f : Nat → Nat} (hf : Budget f c) {a : Action Q} (ha : a.isSpawn = false)
    (hn : sys.next c a = some c') : c'.procs.length = c.procs.length ∧
      ∃ n < c.procs.length, ∃ k < f n, Budget (Function.update f n k) c' := by
  cases a with
  | spawn q => cases ha
  | step n =>
      simp only [System.next] at hn
      split at hn
      next q t hp =>
        obtain ⟨⟨s', t'⟩, hs, rfl⟩ := Option.map_eq_some_iff.mp hn
        have hlt : n < c.procs.length := (List.getElem?_eq_some_iff.mp hp).1
        have ht := hf n q t hp
        have hspend : ∃ k < f n, t'.Takes k := by
          cases hfn : f n with
          | zero =>
              rw [hfn] at ht
              cases t with
              | ret r => cases hs
              | op o k | lock l k | unlock l k => exact ht.elim
          | succ k =>
              rw [hfn] at ht
              refine ⟨k, Nat.lt_succ_self k, ?_⟩
              cases t with
              | ret r => cases hs
              | op o k' =>
                  cases hs
                  exact ht _
              | lock l k' =>
                  simp only [System.advance] at hs
                  split at hs
                  · cases hs
                    exact ht
                  · cases hs
              | unlock l k' =>
                  simp only [System.advance] at hs
                  split at hs
                  · cases hs
                    exact ht
                  · cases hs
        obtain ⟨k, hk, ht'⟩ := hspend
        refine ⟨List.length_set, n, hlt, k, hk, hf.set ?_⟩
        rintro u hu
        cases hu
        exact ht'
      next => cases hn
  | drop n =>
      simp only [System.next] at hn
      split at hn
      next q l k hp =>
        cases hn
        have ht := hf n q _ hp
        have hpos : 0 < f n := by
          rcases Nat.eq_zero_or_pos (f n) with hz | hpos
          · rw [hz] at ht
            exact ht.elim
          · exact hpos
        refine ⟨List.length_set, n, (List.getElem?_eq_some_iff.mp hp).1, 0, hpos, hf.set ?_⟩
        intro u hu
        cases hu
      next => cases hn

theorem sum_update_lt {f : Nat → Nat} {n k N : Nat} (hn : n < N) (hk : k < f n) :
    ∑ i ∈ Finset.range N, Function.update f n k i < ∑ i ∈ Finset.range N, f i := by
  apply Finset.sum_lt_sum
  · intro i _
    by_cases hi : i = n
    · subst hi
      rw [Function.update_self]
      exact hk.le
    · rw [Function.update_of_ne hi]
  · exact ⟨n, Finset.mem_range.mpr hn, by rwa [Function.update_self]⟩

/-- However the scheduler goes on, without new requests it does not go on for long. -/
theorem Budget.length_le {f : Nat → Nat} (hf : Budget f c) {as : List (Action Q)}
    (h : sys.play (fun _ a => a.isSpawn = false) c as = some c') :
    as.length ≤ ∑ n ∈ Finset.range c.procs.length, f n := by
  induction as generalizing c f with
  | nil => exact Nat.zero_le _
  | cons a as ih =>
      rw [play] at h
      split at h
      next ha =>
        obtain ⟨d, hn, hd⟩ := Option.bind_eq_some_iff.mp h
        obtain ⟨hlen, n, hlt, k, hk, hg⟩ := hf.next ha hn
        have hrest := ih hg hd
        rw [hlen] at hrest
        exact Nat.succ_le_of_lt (hrest.trans_lt (sum_update_lt hlt hk))
      next => cases h

theorem budget_next_le {b : Nat} (hh : ∀ q, (sys.handler q).Takes b) {a : Action Q}
    (hc : Budget (fun _ => b) c) (hn : sys.next c a = some c') : Budget (fun _ => b) c' := by
  cases ha : a.isSpawn with
  | false =>
      obtain ⟨-, n, -, k, hk, hg⟩ := hc.next ha hn
      intro m q t hm
      apply (hg m q t hm).mono
      by_cases hmn : m = n
      · rw [hmn, Function.update_self]
        exact hk.le
      · rw [Function.update_of_ne hmn]
  | true =>
      cases a with
      | spawn q =>
          cases hn
          intro m q' t hm
          rw [List.getElem?_append] at hm
          split at hm
          next => exact hc m q' t hm
          next =>
            obtain ⟨x, hx⟩ : ∃ x, m - c.procs.length = x := ⟨_, rfl⟩
            rw [hx] at hm
            cases x with
            | zero =>
                cases hm
                exact hh q
            | succ x => cases hm
      | step n | drop n => cases ha

theorem Runs.budget {b : Nat} {A : World Sg S Q R → Action Q → Prop}
    (hh : ∀ q, (sys.handler q).Takes b) {d : S} (h : sys.Runs A (.start d) c) :
    Budget (fun _ => b) c := by
  apply h.invariant (I := Budget (fun _ => b))
  · exact fun _ _ _ hc _ hn => budget_next_le hh hc hn
  · intro n q t ht
    cases ht

variable [Preorder ι] {rank : Sg.Lock → ι}

omit [DecidableEq Sg.Lock] [DecidableEq Q] in
theorem Orderly.atRest (hc : Orderly rank c) (h : ∀ n, ¬ Unfinished c n) : AtRest c := by
  constructor
  · exact h
  · intro l
    cases hl : c.shared.held l with
    | none => rfl
    | some i =>
        obtain ⟨t, ht⟩ := hc.owned l i hl
        have hret : ∃ r, t = .ret r := by
          by_contra hne
          exact h i.index ⟨i.request, t, ht, fun r hr => hne ⟨r, hr⟩⟩
        obtain ⟨r, rfl⟩ := hret
        have hempty : {m | c.shared.held m = some i} = ∅ := hc.ordered i.index i.request _ ht
        exact absurd (hempty ▸ hl : l ∈ (∅ : Set Sg.Lock)) (Set.notMem_empty l)

variable [WellFoundedGT ι]

theorem Orderly.atRest_of_stuck (hc : Orderly rank c) (h : ∀ m, sys.next c (.step m) = none) :
    AtRest c := by
  apply hc.atRest
  intro n hn
  have hprogress : ∃ m c', sys.next c (.step m) = some c' := hc.progress hn
  obtain ⟨m, c', hm⟩ := hprogress
  cases (h m).symm.trans hm

theorem Orderly.settles (hh : ∀ q, (sys.handler q).Ordered rank ∅ ∅) (hc : Orderly rank c)
    {f : Nat → Nat} (hf : Budget f c) : ∃ as c',
      sys.play (fun _ a => a.isStep = true) c as = some c' ∧ AtRest c' := by
  obtain ⟨b, hb⟩ : ∃ b, ∑ n ∈ Finset.range c.procs.length, f n = b := ⟨_, rfl⟩
  induction b using Nat.strong_induction_on generalizing c f with
  | _ b ih =>
      by_cases hstuck : ∀ m, sys.next c (.step m) = none
      · exact ⟨[], c, rfl, hc.atRest_of_stuck hstuck⟩
      · obtain ⟨m, hm⟩ := not_forall.mp hstuck
        obtain ⟨d, hd⟩ := Option.ne_none_iff_exists'.mp hm
        obtain ⟨hlen, n, hlt, k, hk, hg⟩ := hf.next rfl hd
        have hless : ∑ i ∈ Finset.range d.procs.length, Function.update f n k i < b := by
          rw [hlen, ← hb]
          exact sum_update_lt hlt hk
        obtain ⟨as, c', has, hrest⟩ := ih _ hless (hc.next hh hd) hg rfl
        exact ⟨.step m :: as, c', by simpa [play, Action.isStep, hd] using has, hrest⟩

omit [Preorder ι] [WellFoundedGT ι] in
theorem alive_of_steps {as : List (Action Q)}
    (h : sys.play (fun _ a => a.isStep = true) c as = some c') {n : Nat} {q : Q} {t : Prog Sg R}
    (hp : c.procs[n]? = some ⟨q, some t⟩) : ∃ t', c'.procs[n]? = some ⟨q, some t'⟩ := by
  induction as generalizing c t with
  | nil =>
      cases h
      exact ⟨t, hp⟩
  | cons a as ih =>
      rw [play] at h
      split at h
      next ha =>
        obtain ⟨d, hn, hd⟩ := Option.bind_eq_some_iff.mp h
        cases a with
        | spawn q' | drop m => cases ha
        | step m =>
            simp only [System.next] at hn
            split at hn
            next q' u hm =>
              obtain ⟨⟨s', u'⟩, -, rfl⟩ := Option.map_eq_some_iff.mp hn
              have hlt : n < c.procs.length := (List.getElem?_eq_some_iff.mp hp).1
              by_cases hmn : m = n
              · subst hmn
                cases hp.symm.trans hm
                exact ih hd (List.getElem?_set_self hlt)
              · exact ih hd (by rw [List.getElem?_set_ne hmn]; exact hp)
            next => cases hn
      next => cases h

end System

end AiterCommerce.Concurrent
