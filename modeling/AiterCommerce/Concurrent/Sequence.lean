import AiterCommerce.Concurrent.Alone
import AiterCommerce.Concurrent.Bounded

namespace AiterCommerce.Concurrent

variable {Sg : Interface} {S Q R ι : Type}

theorem Prog.Ordered.respects [Preorder ι] {rank : Sg.Lock → ι} {H K : Set Sg.Lock}
    {t : Prog Sg R} (h : t.Ordered rank K H) : t.Respects (fun _ _ => True) K H := by
  induction t generalizing H with
  | ret r => exact h
  | op o k ih => exact ⟨trivial, fun x => ih x (h x)⟩
  | lock l k ih => exact ⟨fun hl => lt_irrefl _ (h.1 l hl), ih h.2⟩
  | unlock l k ih => exact ⟨h.1, ih h.2⟩

theorem Prog.run_related {rel : S → S → Prop} (hrefl : ∀ s, rel s s)
    (htrans : ∀ a b c, rel a b → rel b c → rel a c) {exec : (o : Sg.Op) → S → Sg.Resp o × S}
    {P : Sg.Op → Prop} (hP : ∀ o, P o → ∀ s, rel s (exec o s).2) {t : Prog Sg R} (h : t.All P)
    (s : S) : rel s (t.run exec s).2 := by
  induction t generalizing s with
  | ret r => exact hrefl s
  | op o k ih => exact htrans _ _ _ (hP o h.1 s) (ih _ (h.2 _) _)
  | lock l k ih | unlock l k ih => exact ih h s

namespace System

/-- What the data becomes when the requests are served one after another. -/
def serveAll (sys : System Sg S Q R) (qs : List Q) (d : S) : S :=
  qs.foldl (fun d q => ((sys.handler q).run sys.exec d).2) d

theorem serveAll_append (sys : System Sg S Q R) (qs qs' : List Q) (d : S) :
    sys.serveAll (qs ++ qs') d = sys.serveAll qs' (sys.serveAll qs d) :=
  List.foldl_append

theorem serveAll_related {sys : System Sg S Q R} {rel : S → S → Prop} (hrefl : ∀ s, rel s s)
    (htrans : ∀ a b c, rel a b → rel b c → rel a c) {qs : List Q}
    (h : ∀ q ∈ qs, ∀ s, rel s ((sys.handler q).run sys.exec s).2) (d : S) :
    rel d (sys.serveAll qs d) := by
  induction qs generalizing d with
  | nil => exact hrefl d
  | cons q qs ih =>
      obtain ⟨hq, hqs⟩ := List.forall_mem_cons.mp h
      exact htrans _ _ _ (hq d) (ih hqs _)

variable [DecidableEq Sg.Lock] [DecidableEq Q] {sys : System Sg S Q R} [Preorder ι]
  {rank : Sg.Lock → ι} {c c' : World Sg S Q R}

omit [Preorder ι] in
theorem others_of_steps {n : Nat} (h : sys.Runs (fun _ a => a = .step n) c c') {m : Nat}
    (hm : m ≠ n) : c'.procs[m]? = c.procs[m]? := by
  induction h with
  | refl => rfl
  | tail _ hs ih =>
      obtain ⟨a, rfl, hn⟩ := hs
      rw [← ih]
      simp only [System.next] at hn
      split at hn
      next q t hp =>
        obtain ⟨⟨s, t'⟩, -, rfl⟩ := Option.map_eq_some_iff.mp hn
        exact List.getElem?_set_ne (Ne.symm hm)
      next => cases hn

theorem Orderly.serves (hh : ∀ q, (sys.handler q).Ordered rank ∅ ∅) (hc : Orderly rank c)
    (hrest : AtRest c) (q : Q) : ∃ c', sys.Runs (fun _ a => a = .spawn q ∨ a.isStep = true) c c' ∧
      Orderly rank c' ∧ AtRest c' ∧
        c'.shared.data = ((sys.handler q).run sys.exec c.shared.data).2 := by
  let arrived : World Sg S Q R := { c with procs := c.procs ++ [⟨q, some (sys.handler q)⟩] }
  have hspawn : sys.next c (.spawn q) = some arrived := rfl
  have hn : arrived.procs[c.procs.length]? = some ⟨q, some (sys.handler q)⟩ := by simp [arrived]
  have hrun : ∃ c', sys.Runs (fun _ a => a = .step c.procs.length) arrived c' ∧
      Alone sys c.procs.length q (sys.handler q) arrived c' :=
    runs_alone (A := fun _ a => a = .step c.procs.length) (fun _ => rfl) (hh q).respects hn
      (by simp) (fun l _ => hrest.free l)
  obtain ⟨c', hr, halone⟩ := hrun
  have hc' : Orderly rank c' := hr.orderly hh (hc.next hh hspawn)
  refine ⟨c', .head ⟨_, .inl rfl, hspawn⟩ (hr.mono ?_), hc', hc'.atRest ?_, halone.data⟩
  · rintro _ _ rfl
    exact .inr rfl
  · rintro n ⟨q', t, hp, ht⟩
    by_cases hnew : n = c.procs.length
    · have hret := halone.returned
      rw [World.returned, ← hnew, hp] at hret
      cases t with
      | ret r => exact ht r rfl
      | op o k | lock l k | unlock l k => cases hret
    · rw [others_of_steps hr hnew] at hp
      have hold : c.procs[n]? = some ⟨q', some t⟩ := by
        have hlen := (List.getElem?_eq_some_iff.mp hp).1
        rw [List.length_append, List.length_singleton] at hlen
        rwa [List.getElem?_append_left (by omega)] at hp
      exact hrest.finished n ⟨q', t, hold, ht⟩

/-- Requests served one after another are a run, in which nothing else arrives. -/
theorem Orderly.serves_all (hh : ∀ q, (sys.handler q).Ordered rank ∅ ∅) (hc : Orderly rank c)
    (hrest : AtRest c) (qs : List Q) : ∃ c',
      sys.Runs (fun _ a => (∃ q ∈ qs, a = .spawn q) ∨ a.isStep = true) c c' ∧ AtRest c' ∧
        c'.shared.data = sys.serveAll qs c.shared.data := by
  induction qs generalizing c with
  | nil => exact ⟨c, .refl, hrest, rfl⟩
  | cons q qs ih =>
      obtain ⟨e, hr, he, hrest', hd⟩ := hc.serves hh hrest q
      obtain ⟨c', hr', hrest'', hd'⟩ := ih he hrest'
      refine ⟨c', .trans (hr.mono ?_) (hr'.mono ?_), hrest'', ?_⟩
      · rintro _ _ (rfl | ha)
        · exact .inl ⟨q, List.mem_cons_self, rfl⟩
        · exact .inr ha
      · rintro _ _ (⟨q', hq', rfl⟩ | ha)
        · exact .inl ⟨q', List.mem_cons_of_mem _ hq', rfl⟩
        · exact .inr ha
      · rw [hd', hd]
        rfl

omit [DecidableEq Sg.Lock] [DecidableEq Q] in
theorem atRest_start (d : S) : AtRest (World.start d : World Sg S Q R) := by
  constructor
  · rintro n ⟨q, t, hp, -⟩
    cases hp
  · exact fun _ => rfl

end System

end AiterCommerce.Concurrent
