import AiterCommerce.Concurrent.System

namespace AiterCommerce.Concurrent

variable {Sg : Interface} {S Q R : Type}

section Leads

variable {exec : (o : Sg.Op) → S → Sg.Resp o × S}

/-- The events, newest first, lead from one state of the data to another. -/
def Leads (exec : (o : Sg.Op) → S → Sg.Resp o × S) : List (Event Sg S Q) → S → S → Prop
  | [], d, d' => d' = d
  | e :: es, d, d' => Leads exec es d e.before ∧ d' = (exec e.op e.before).2

theorem Leads.snoc {es : List (Event Sg S Q)} {e : Event Sg S Q} {d : S}
    (h : Leads exec es (exec e.op e.before).2 d) : Leads exec (es ++ [e]) e.before d := by
  induction es generalizing d with
  | nil => exact ⟨rfl, h⟩
  | cons f es ih => exact ⟨ih h.1, h.2⟩

theorem Leads.related {rel : S → S → Prop} (hrefl : ∀ d, rel d d)
    (htrans : ∀ {a b c}, rel a b → rel b c → rel a c) {es : List (Event Sg S Q)} {d d' : S}
    (h : Leads exec es d d') (hs : ∀ e ∈ es, rel e.before (exec e.op e.before).2) : rel d d' := by
  induction es generalizing d' with
  | nil => exact h ▸ hrefl d
  | cons e es ih =>
      obtain ⟨hl, rfl⟩ := h
      obtain ⟨he, hes⟩ := List.forall_mem_cons.mp hs
      exact htrans (ih hl hes) he

end Leads

variable [DecidableEq Sg.Lock] [DecidableEq Q] {sys : System Sg S Q R}

theorem System.Runs.leads {A : World Sg S Q R → Action Q → Prop} {G : Event Sg S Q → Prop}
    (hG : ∀ c n q o k, A c (.step n) → c.procs[n]? = some ⟨q, some (.op o k)⟩ →
      G ⟨⟨n, q⟩, o, (sys.exec o c.shared.data).1, c.shared.data⟩)
    {c c' : World Sg S Q R} (h : sys.Runs A c c') :
    ∃ news, c'.shared.history = news ++ c.shared.history ∧
      Leads sys.exec news c.shared.data c'.shared.data ∧ ∀ e ∈ news, G e := by
  induction h with
  | refl => exact ⟨[], rfl, rfl, by simp⟩
  | tail _ hs ih =>
      obtain ⟨a, ha, hn⟩ := hs
      obtain ⟨news, hh, hl, hg⟩ := ih
      rcases next_cases hn with ⟨n, q, o, k, rfl, hp, hs⟩ | ⟨hd, hh'⟩
      · refine ⟨_ :: news, ?_, ⟨hl, ?_⟩, List.forall_mem_cons.mpr ⟨hG _ n q o k ha hp, hg⟩⟩
        · rw [hs, Shared.perform_history, hh, List.cons_append]
        · rw [hs, Shared.perform_data]
      · exact ⟨news, hh'.trans hh, hd ▸ hl, hg⟩

/-- Task `n` went on to its end while nobody else took a step. -/
structure Alone (sys : System Sg S Q R) (n : Nat) (q : Q) (t : Prog Sg R) (c c' : World Sg S Q R) :
    Prop where
  returned : c'.returned n = some (q, (t.run sys.exec c.shared.data).1)
  data : c'.shared.data = (t.run sys.exec c.shared.data).2
  history : ∃ news, c'.shared.history = news ++ c.shared.history ∧
    (∀ e ∈ news, e.actor = ⟨n, q⟩) ∧ Leads sys.exec news c.shared.data c'.shared.data

namespace System

variable {A : World Sg S Q R → Action Q → Prop} {n : Nat} {q : Q}

omit [DecidableEq Sg.Lock] [DecidableEq Q] in
theorem procs_set {procs : List (Proc Sg Q R)} {p : Proc Sg Q R} (h : procs[n]? = some p)
    (p' : Proc Sg Q R) : (procs.set n p')[n]? = some p' :=
  List.getElem?_set_self (List.getElem?_eq_some_iff.mp h).1

/-- A program that finds every lock free, or held by its own task, runs to the
end that `Prog.run` computes. -/
theorem runs_alone (hA : ∀ c, A c (.step n)) {may : Set Sg.Lock → Sg.Op → Prop} {H' : Set Sg.Lock}
    {t : Prog Sg R} {H : Set Sg.Lock} {c : World Sg S Q R} (ht : t.Respects may H' H)
    (hn : c.procs[n]? = some ⟨q, some t⟩) (hheld : ∀ l ∈ H, c.shared.held l = some ⟨n, q⟩)
    (hfree : ∀ l ∉ H, c.shared.held l = none) :
    ∃ c', sys.Runs A c c' ∧ Alone sys n q t c c' := by
  induction t generalizing H c with
  | ret r =>
      refine ⟨c, .refl, ?_, rfl, [], rfl, by simp, rfl⟩
      rw [World.returned, hn]
      rfl
  | op o k ih =>
      have hs : sys.next c (.step n) = some ⟨c.shared.perform sys.exec ⟨n, q⟩ o,
        c.procs.set n ⟨q, some (k (sys.exec o c.shared.data).1)⟩⟩ := next_step hn rfl
      obtain ⟨c', hr, hret, hd, news, hh, hown, hl⟩ := ih (sys.exec o c.shared.data).1
        (c := ⟨c.shared.perform sys.exec ⟨n, q⟩ o, _⟩) (ht.2 _) (procs_set hn _) hheld hfree
      refine ⟨c', .head ⟨_, hA c, hs⟩ hr, hret, hd,
        news ++ [⟨⟨n, q⟩, o, (sys.exec o c.shared.data).1, c.shared.data⟩], ?_, ?_, ?_⟩
      · rw [hh, Shared.perform_history, List.append_assoc, List.singleton_append]
      · exact List.forall_mem_append.mpr ⟨hown, List.forall_mem_singleton.mpr rfl⟩
      · exact Leads.snoc (e := ⟨⟨n, q⟩, o, (sys.exec o c.shared.data).1, c.shared.data⟩) hl
  | lock l k ih =>
      have hs : sys.next c (.step n) = some ⟨c.shared.acquire ⟨n, q⟩ l,
          c.procs.set n ⟨q, some k⟩⟩ := by
        refine next_step hn ?_
        rw [advance, if_pos (hfree l ht.1)]
      have hheld' : ∀ m ∈ insert l H, (c.shared.acquire ⟨n, q⟩ l).held m = some ⟨n, q⟩ := by
        intro m hm
        rcases Set.mem_insert_iff.mp hm with rfl | hmH
        · exact c.shared.acquire_held_self _ m
        · have hml : m ≠ l := by rintro rfl; exact ht.1 hmH
          rw [c.shared.acquire_held_ne _ hml, hheld m hmH]
      have hfree' : ∀ m ∉ insert l H, (c.shared.acquire ⟨n, q⟩ l).held m = none := by
        intro m hm
        obtain ⟨hne, hm⟩ := not_or.mp (Set.mem_insert_iff.not.mp hm)
        rw [c.shared.acquire_held_ne _ hne, hfree m hm]
      obtain ⟨c', hr, hret, hd, hh⟩ :=
        ih (c := ⟨c.shared.acquire ⟨n, q⟩ l, _⟩) ht.2 (procs_set hn _) hheld' hfree'
      exact ⟨c', .head ⟨_, hA c, hs⟩ hr, hret, hd, hh⟩
  | unlock l k ih =>
      have hs : sys.next c (.step n) = some ⟨c.shared.release l, c.procs.set n ⟨q, some k⟩⟩ := by
        refine next_step hn ?_
        rw [advance, if_pos (hheld l ht.1)]
      have hheld' : ∀ m ∈ H \ {l}, (c.shared.release l).held m = some ⟨n, q⟩ := by
        intro m hm
        rw [c.shared.release_held_ne hm.2, hheld m hm.1]
      have hfree' : ∀ m ∉ H \ {l}, (c.shared.release l).held m = none := by
        intro m hm
        by_cases hml : m = l
        · subst hml
          exact c.shared.release_held_self m
        · rw [c.shared.release_held_ne hml, hfree m (fun h => hm ⟨h, hml⟩)]
      obtain ⟨c', hr, hret, hd, hh⟩ :=
        ih (c := ⟨c.shared.release l, _⟩) ht.2 (procs_set hn _) hheld' hfree'
      exact ⟨c', .head ⟨_, hA c, hs⟩ hr, hret, hd, hh⟩

/-- A request that arrives when no lock is held can be served before anything
else happens. -/
theorem runs_served (hA : ∀ c a, A c a) {may : Set Sg.Lock → Sg.Op → Prop}
    (ht : (sys.handler q).Respects may ∅ ∅) {c : World Sg S Q R}
    (hfree : ∀ l, c.shared.held l = none) :
    ∃ c', sys.Runs A c c' ∧ Alone sys c.procs.length q (sys.handler q) c c' := by
  let arrived : World Sg S Q R := { c with procs := c.procs ++ [⟨q, some (sys.handler q)⟩] }
  have hn : arrived.procs[c.procs.length]? = some ⟨q, some (sys.handler q)⟩ := by simp [arrived]
  obtain ⟨c', hr, halone⟩ := runs_alone (fun c => hA c _) ht hn (by simp) (fun l _ => hfree l)
  exact ⟨c', .head ⟨.spawn q, hA c _, rfl⟩ hr, halone.returned, halone.data, halone.history⟩

end System

end AiterCommerce.Concurrent
