import AiterCommerce.Concurrent.Fallible
import Mathlib.Order.WellFounded

namespace AiterCommerce.Concurrent

variable {Sg : Interface} {S Q R T α β ε ε' ι : Type}

namespace Prog

/-- Every lock the program takes ranks above all locks it holds there, and it drops only
what it holds. It starts with the locks `H` and returns with the locks `H'`. -/
def Ordered [Preorder ι] (rank : Sg.Lock → ι) (H' : Set Sg.Lock) :
    Set Sg.Lock → Prog Sg R → Prop
  | H, .ret _ => H = H'
  | H, .op _ k => ∀ x, (k x).Ordered rank H' H
  | H, .lock l k => (∀ m ∈ H, rank m < rank l) ∧ k.Ordered rank H' (insert l H)
  | H, .unlock l k => l ∈ H ∧ k.Ordered rank H' (H \ {l})

variable [Preorder ι] {rank : Sg.Lock → ι} {H K L : Set Sg.Lock}

theorem Ordered.bind {t : Prog Sg R} {f : R → Prog Sg T} (ht : t.Ordered rank K H)
    (hf : ∀ r, (f r).Ordered rank L K) : (t.bind f).Ordered rank L H := by
  induction t generalizing H with
  | ret r => exact ht ▸ hf r
  | op o k ih => exact fun x => ih x (ht x)
  | lock l k ih | unlock l k ih => exact ⟨ht.1, ih ht.2⟩

theorem Ordered.perform (o : Sg.Op) : (Prog.perform o).Ordered rank H H := fun _ => rfl

theorem Ordered.locked {l : Sg.Lock} {body : Prog Sg R} (hl : ∀ m ∈ H, rank m < rank l)
    (h : body.Ordered rank (insert l H) (insert l H)) : (Prog.locked l body).Ordered rank H H := by
  have hn : l ∉ H := fun hmem => lt_irrefl _ (hl l hmem)
  constructor
  · exact hl
  · apply h.bind
    intro r
    exact ⟨Set.mem_insert l H, Set.insert_sdiff_self_of_notMem hn⟩

theorem Ordered.inl {Sg' : Interface} {rank' : (Sg.sum Sg').Lock → ι} {t : Prog Sg R}
    (h : t.Ordered (fun l => rank' (.inl l)) K H) :
    (t.inl : Prog (Sg.sum Sg') R).Ordered rank' (Set.image Sum.inl K) (Set.image Sum.inl H) := by
  induction t generalizing H with
  | ret r => exact congrArg (Set.image Sum.inl) h
  | op o k ih => exact fun x => ih x (h x)
  | lock l k ih =>
      constructor
      · rintro _ ⟨m, hm, rfl⟩
        exact h.1 m hm
      · rw [← Set.image_insert_eq]
        exact ih h.2
  | unlock l k ih =>
      constructor
      · exact Set.mem_image_of_mem Sum.inl h.1
      · have hset : (Set.image Sum.inl H \ {Sum.inl l} : Set (Sg.sum Sg').Lock) =
            Set.image Sum.inl (H \ {l}) := by
          rw [Set.image_sdiff Sum.inl_injective, Set.image_singleton]
        rw [hset]
        exact ih h.2

end Prog

namespace Fallible

variable [Preorder ι] {rank : Sg.Lock → ι} {H : Set Sg.Lock}

def Ordered (rank : Sg.Lock → ι) (H : Set Sg.Lock) (m : Fallible Sg ε α) : Prop :=
  Prog.Ordered rank H H (ExceptT.run m)

theorem Ordered.pure (a : α) : Ordered rank H (Pure.pure a : Fallible Sg ε α) := rfl

theorem Ordered.throw (e : ε) : Ordered rank H (throw e : Fallible Sg ε α) := rfl

theorem Ordered.bind {m : Fallible Sg ε α} {f : α → Fallible Sg ε β} (hm : Ordered rank H m)
    (hf : ∀ a, Ordered rank H (f a)) : Ordered rank H (m >>= f) := by
  apply @Prog.Ordered.bind Sg _ _ ι _ rank H H H _ (ExceptT.bindCont f) hm
  intro r
  cases r with
  | ok a => exact hf a
  | error e => rfl

theorem Ordered.perform (o : Sg.Op) : Ordered rank H (perform o : Fallible Sg ε _) :=
  fun _ => rfl

theorem Ordered.locked {l : Sg.Lock} {m : Fallible Sg ε α} (hl : ∀ n ∈ H, rank n < rank l)
    (h : Ordered rank (insert l H) m) : Ordered rank H (locked l m) :=
  Prog.Ordered.locked hl h

theorem Ordered.mapErr (f : ε' → ε) (x : Except ε' α) :
    Ordered rank H (mapErr f x : Fallible Sg ε α) := by
  cases x <;> rfl

theorem Ordered.okOr (e : ε) (x : Option α) : Ordered rank H (okOr e x : Fallible Sg ε α) := by
  cases x <;> rfl

theorem Ordered.adaptErr {f : ε' → ε} {m : Fallible Sg ε' α} (h : Ordered rank H m) :
    Ordered rank H (adaptErr f m) :=
  Prog.Ordered.bind h (fun _ => rfl)

end Fallible

namespace System

def Unfinished (c : World Sg S Q R) (n : Nat) : Prop :=
  ∃ q t, c.procs[n]? = some ⟨q, some t⟩ ∧ ∀ r, t ≠ .ret r

/-- The rest of every task keeps to the order from the locks it holds, and every taken lock
has a task that is still there. -/
structure Orderly [Preorder ι] (rank : Sg.Lock → ι) (c : World Sg S Q R) : Prop where
  ordered : ∀ n (q : Q) (t : Prog Sg R), c.procs[n]? = some ⟨q, some t⟩ →
    t.Ordered rank ∅ {l | c.shared.held l = some ⟨n, q⟩}
  owned : ∀ l (i : Name Q), c.shared.held l = some i →
    ∃ t : Prog Sg R, c.procs[i.index]? = some ⟨i.request, some t⟩

variable [DecidableEq Sg.Lock] [DecidableEq Q] {sys : System Sg S Q R} [Preorder ι]
  {rank : Sg.Lock → ι} {c c' : World Sg S Q R}

omit [DecidableEq Sg.Lock] [DecidableEq Q] in
theorem orderly_start (d : S) : Orderly rank (World.start d : World Sg S Q R) := by
  constructor
  · intro n q t h
    cases h
  · intro l i h
    cases h

theorem Orderly.spawn (hc : Orderly rank c) {q : Q} (hq : (sys.handler q).Ordered rank ∅ ∅)
    (hn : sys.next c (.spawn q) = some c') : Orderly rank c' := by
  cases hn
  constructor
  · intro n q' t h
    rw [List.getElem?_append] at h
    split at h
    next => exact hc.ordered n q' t h
    next hlt =>
      have hfree : {l | c.shared.held l = some ⟨n, q'⟩} = (∅ : Set Sg.Lock) := by
        apply Set.eq_empty_of_forall_notMem
        intro l hl
        obtain ⟨t', ht'⟩ := hc.owned l ⟨n, q'⟩ hl
        exact hlt (List.getElem?_eq_some_iff.mp ht').1
      dsimp only
      rw [hfree]
      have h0 : n - c.procs.length = 0 := by
        by_contra hpos
        rw [List.getElem?_eq_none (by simp; omega)] at h
        cases h
      rw [h0] at h
      cases h
      exact hq
  · intro l i h
    obtain ⟨t, ht⟩ := hc.owned l i h
    exact ⟨t, by rw [List.getElem?_append_left (List.getElem?_eq_some_iff.mp ht).1, ht]⟩

theorem advance_ordered {i : Name Q} {t t' : Prog Sg R} {s s' : Shared Sg S Q}
    (ht : t.Ordered rank ∅ {l | s.held l = some i}) (h : sys.advance i t s = some (s', t')) :
    t'.Ordered rank ∅ {l | s'.held l = some i} ∧
      ∀ l j, j ≠ i → (s'.held l = some j ↔ s.held l = some j) := by
  cases t with
  | ret r => cases h
  | op o k =>
      cases h
      exact ⟨ht _, fun l j _ => Iff.rfl⟩
  | lock l k =>
      simp only [advance] at h
      split at h
      next hf =>
        cases h
        constructor
        · have hset : {m | (s.acquire i l).held m = some i} = insert l {m | s.held m = some i} := by
            ext m
            by_cases hm : m = l
            · simp [hm]
            · simp [s.acquire_held_ne i hm, hm]
          rw [hset]
          exact ht.2
        · intro m j hj
          by_cases hm : m = l
          · subst hm
            simp [hf, hj.symm]
          · rw [s.acquire_held_ne i hm]
      next => cases h
  | unlock l k =>
      simp only [advance] at h
      split at h
      next hf =>
        cases h
        constructor
        · have hset : {m | (s.release l).held m = some i} = {m | s.held m = some i} \ {l} := by
            ext m
            by_cases hm : m = l
            · simp [hm]
            · simp [s.release_held_ne hm, hm]
          rw [hset]
          exact ht.2
        · intro m j hj
          by_cases hm : m = l
          · subst hm
            simp [hf, hj.symm]
          · rw [s.release_held_ne hm]
      next => cases h

omit [DecidableEq Sg.Lock] [DecidableEq Q] in
theorem Orderly.owned_set (hc : Orderly rank c) {n : Nat} {q : Q} {t : Option (Prog Sg R)}
    (hp : c.procs[n]? = some ⟨q, t⟩) {l : Sg.Lock} {i : Name Q} (hi : i ≠ ⟨n, q⟩)
    (hl : c.shared.held l = some i) (x : Proc Sg Q R) :
    ∃ u, (c.procs.set n x)[i.index]? = some ⟨i.request, some u⟩ := by
  obtain ⟨u, hu⟩ := hc.owned l i hl
  have hne : n ≠ i.index := by
    rintro rfl
    rw [hp] at hu
    cases hu
    exact hi rfl
  exact ⟨u, by rw [List.getElem?_set_ne hne, hu]⟩

theorem Orderly.step (hc : Orderly rank c) {n : Nat} (hn : sys.next c (.step n) = some c') :
    Orderly rank c' := by
  simp only [next] at hn
  split at hn
  next q t hp =>
    obtain ⟨⟨s', t'⟩, ha, rfl⟩ := Option.map_eq_some_iff.mp hn
    obtain ⟨ht', hothers⟩ := advance_ordered (hc.ordered n q t hp) ha
    have hlt : n < c.procs.length := (List.getElem?_eq_some_iff.mp hp).1
    constructor
    · intro m q' u hm
      rw [List.getElem?_set] at hm
      split at hm
      next hnm =>
        subst hnm
        cases hm
        exact ht'
      next hnm =>
        have hset : {l | s'.held l = some ⟨m, q'⟩} = {l | c.shared.held l = some ⟨m, q'⟩} := by
          ext l
          exact hothers l ⟨m, q'⟩ (fun he => hnm (congrArg Name.index he).symm)
        dsimp only
        rw [hset]
        exact hc.ordered m q' u hm
    · intro l i hl
      by_cases hi : i = ⟨n, q⟩
      · subst hi
        exact ⟨t', List.getElem?_set_self hlt⟩
      · exact hc.owned_set hp hi ((hothers l i hi).mp hl) _
  next => cases hn

theorem Orderly.drop (hc : Orderly rank c) {n : Nat} (hn : sys.next c (.drop n) = some c') :
    Orderly rank c' := by
  simp only [next] at hn
  split at hn
  next q l k hp =>
    cases hn
    have hlt : n < c.procs.length := (List.getElem?_eq_some_iff.mp hp).1
    have hheld (m : Sg.Lock) (j : Name Q) : (c.shared.abandon ⟨n, q⟩).held m = some j ↔
        c.shared.held m = some j ∧ j ≠ ⟨n, q⟩ := by
      simp only [Shared.abandon]
      split
      next h => simp [h, eq_comm]
      next h =>
        constructor
        · intro hj
          exact ⟨hj, fun he => h (he ▸ hj)⟩
        · exact And.left
    constructor
    · intro m q' u hm
      rw [List.getElem?_set] at hm
      split at hm
      next hnm =>
        cases hm
      next hnm =>
        have hset : {l | (c.shared.abandon ⟨n, q⟩).held l = some ⟨m, q'⟩} =
            {l | c.shared.held l = some ⟨m, q'⟩} := by
          ext l
          simp [hheld, Ne.symm hnm]
        dsimp only
        rw [hset]
        exact hc.ordered m q' u hm
    · intro m i hm
      obtain ⟨hm, hi⟩ := (hheld m i).mp hm
      exact hc.owned_set hp hi hm _
  next => cases hn

theorem Orderly.next (hh : ∀ q, (sys.handler q).Ordered rank ∅ ∅) (hc : Orderly rank c)
    {a : Action Q} (hn : sys.next c a = some c') : Orderly rank c' := by
  cases a with
  | spawn q => exact hc.spawn (hh q) hn
  | step n => exact hc.step hn
  | drop n => exact hc.drop hn

theorem Runs.orderly {A : World Sg S Q R → Action Q → Prop}
    (hh : ∀ q, (sys.handler q).Ordered rank ∅ ∅) (h : sys.Runs A c c') (hc : Orderly rank c) :
    Orderly rank c' :=
  h.invariant (fun _ _ _ hw _ hn => hw.next hh hn) hc

omit [DecidableEq Sg.Lock] [DecidableEq Q] in
theorem Orderly.not_held (hc : Orderly rank c) {n : Nat} {q : Q} {l : Sg.Lock} {k : Prog Sg R}
    (hp : c.procs[n]? = some ⟨q, some (.lock l k)⟩) : c.shared.held l ≠ some ⟨n, q⟩ := by
  intro hl
  exact lt_irrefl _ ((hc.ordered n q _ hp).1 l hl)

/-- Either a task takes its next step, or it waits for a lock of another unfinished one,
which ranks above all locks it holds itself. -/
theorem Orderly.step_or_wait (hc : Orderly rank c) {n : Nat} {q : Q} {t : Prog Sg R}
    (hp : c.procs[n]? = some ⟨q, some t⟩) (ht : ∀ r, t ≠ .ret r) :
    (∃ c', sys.next c (.step n) = some c') ∨
      ∃ l i, c.shared.held l = some i ∧ Unfinished c i.index ∧
        ∀ m, c.shared.held m = some ⟨n, q⟩ → rank m < rank l := by
  have hord := hc.ordered n q t hp
  cases t with
  | ret r => exact absurd rfl (ht r)
  | op o k => exact .inl ⟨_, next_step hp rfl⟩
  | unlock l k => exact .inl ⟨_, next_step hp (if_pos hord.1)⟩
  | lock l k =>
      cases hl : c.shared.held l with
      | none => exact .inl ⟨_, next_step hp (if_pos hl)⟩
      | some i =>
          obtain ⟨u, hu⟩ := hc.owned l i hl
          refine .inr ⟨l, i, hl, ⟨i.request, u, hu, ?_⟩, hord.1⟩
          -- one that has returned holds nothing
          rintro r rfl
          have hempty : {m | c.shared.held m = some i} = ∅ := hc.ordered i.index i.request _ hu
          exact Set.notMem_empty l (hempty ▸ hl)

/-- As long as a request is unfinished, some request takes its next step. -/
theorem Orderly.progress [WellFoundedGT ι] (hc : Orderly rank c) {n : Nat}
    (hn : Unfinished c n) : ∃ m c', sys.next c (.step m) = some c' := by
  -- from holder to holder the rank of the lock waited for grows
  have hchain : ∀ x l i, rank l = x → c.shared.held l = some i → Unfinished c i.index →
      ∃ m c', sys.next c (.step m) = some c' := by
    intro x
    induction x using WellFoundedGT.induction with
    | ind x ih =>
        rintro l i rfl hl ⟨q, t, hp, ht⟩
        obtain ⟨u, hu⟩ := hc.owned l i hl
        obtain rfl : i.request = q := by
          rw [hp] at hu
          cases hu
          rfl
        rcases hc.step_or_wait hp ht with ⟨c', hs⟩ | ⟨l', i', hl', hi', hlt⟩
        · exact ⟨i.index, c', hs⟩
        · exact ih (rank l') (hlt l hl) l' i' rfl hl' hi'
  obtain ⟨q, t, hp, ht⟩ := hn
  rcases hc.step_or_wait hp ht with ⟨c', hs⟩ | ⟨l, i, hl, hi, _⟩
  · exact ⟨n, c', hs⟩
  · exact hchain (rank l) l i rfl hl hi

end System

end AiterCommerce.Concurrent
