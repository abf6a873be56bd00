import AiterCommerce.Concurrent.Fallible

namespace AiterCommerce.Concurrent

variable {Sg : Interface} {S Q R ε ε' α β : Type}

/-- All that the task did is of the kind `U`. -/
def Clean (U : Event Sg S Q → Prop) (i : Name Q) (s : Shared Sg S Q) : Prop :=
  ∀ e ∈ s.history, e.actor = i → U e

variable [DecidableEq Sg.Lock] [DecidableEq Q] {sys : System Sg S Q R}

namespace Discipline

def spec (D : Discipline sys) (post : Name Q → R → Shared Sg S Q → Prop) : Spec sys where
  locks := D
  inv _ := True
  drop_inv _ _ _ _ _ _ := trivial
  post := post

variable (D : Discipline sys)

/-- Nobody can take this knowledge of the data from the holder of the locks. -/
def Guarded (H : Set Sg.Lock) (K : S → Prop) : Prop :=
  ∀ d d', (∀ l ∈ H, D.same l d d') → K d → K d'

variable (post : Name Q → R → Shared Sg S Q → Prop) (U : Event Sg S Q → Prop) (i : Name Q)

/-- Task `i` runs the program under the locks `H`, knows `K` at the start and `L`
at the end. If `c` tells that it is clean at the start, then `C` of the result
tells that it is clean at the end. -/
def Undoes (c : Prop) (H : Set Sg.Lock) (K L : S → Prop) (C : Except ε α → Prop)
    (m : Fallible Sg ε α) : Prop :=
  ∀ s, (c → Clean U i s) → K s.data → (∀ l ∈ H, s.held l = some i) →
    (D.spec post).Ensures i
      (fun r u => (C r → Clean U i u) ∧ L u.data ∧ ∀ l ∈ H, u.held l = some i) m s

variable {D post U i}

omit [DecidableEq Sg.Lock] [DecidableEq Q] in
theorem guarded_true {H : Set Sg.Lock} : D.Guarded H (fun _ => True) := fun _ _ _ _ => trivial

omit [DecidableEq Sg.Lock] [DecidableEq Q] in
theorem Guarded.mono {H H' : Set Sg.Lock} {K : S → Prop} (h : D.Guarded H K) (hH : H ⊆ H') :
    D.Guarded H' K := fun d d' hs => h d d' (fun l hl => hs l (hH hl))

omit [DecidableEq Sg.Lock] in
theorem Guarded.rely {H : Set Sg.Lock} {K : S → Prop} {s s' : Shared Sg S Q} (h : D.Guarded H K)
    (hH : ∀ l ∈ H, s.held l = some i) (hr : (D.spec post).Rely i s s') (hK : K s.data) :
    K s'.data :=
  h _ _ (fun l hl => hr.same l (hH l hl)) hK

omit [DecidableEq Sg.Lock] in
theorem clean_rely {s s' : Shared Sg S Q} (h : Clean U i s) (hr : (D.spec post).Rely i s s') :
    Clean U i s' := fun e he hi => h e (hr.own he hi) hi

namespace Undoes

variable {c : Prop} {H : Set Sg.Lock} {K L M : S → Prop} {C : Except ε α → Prop}

theorem pure {a : α} (h : C (.ok a) → c) : D.Undoes post U i c H K K C (pure a) :=
  fun _ hc hK hH => ⟨fun hC => hc (h hC), hK, hH⟩

theorem throw {e : ε} (h : C (.error e) → c) : D.Undoes post U i c H K K C (throw e) :=
  fun _ hc hK hH => ⟨fun hC => hc (h hC), hK, hH⟩

theorem mapErr (f : ε' → ε) {x : Except ε' α} (h : C (x.mapError f) → c) :
    D.Undoes post U i c H K K C (Fallible.mapErr f x) := by
  cases x with
  | ok a => exact .pure h
  | error e => exact .throw h

theorem okOr (e : ε) {x : Option α} (h : C (x.elim (.error e) .ok) → c) :
    D.Undoes post U i c H K K C (Fallible.okOr e x) := by
  cases x with
  | some a => exact .pure h
  | none => exact .throw h

theorem perform {o : Sg.Op} {C : Except ε (Sg.Resp o) → Prop} (hG : D.Guarded H K)
    (hn : ∀ l, D.need o l → l ∈ H) (hL : ∀ d, K d → L (sys.exec o d).2)
    (hC : ∀ d, K d → C (.ok (sys.exec o d).1) → c ∧ U ⟨i, o, (sys.exec o d).1, d⟩) :
    D.Undoes post U i c H K L C (Fallible.perform o) := by
  intro s hc hK hH
  rw [Spec.ensures_perform]
  intro s' hr _ _
  have hK' := hG.rely hH hr hK
  have hH' : ∀ l ∈ H, s'.held l = some i := fun l hl => (hr.held l).mpr (hH l hl)
  refine ⟨fun l hl => hH' l (hn l hl), ⟨trivial, trivial⟩, fun hr' => ?_, hL _ hK', hH'⟩
  obtain ⟨hcl, hU⟩ := hC _ hK' hr'
  intro e he hei
  rcases List.mem_cons.mp he with rfl | he
  · exact hU
  · exact clean_rely (hc hcl) hr e he hei

theorem bind {m : Fallible Sg ε α} {f : α → Fallible Sg ε β} {F : Except ε β → Prop}
    (hm : D.Undoes post U i c H K L C m) (he : ∀ e, F (.error e) → C (.error e))
    (hL : ∀ d, L d → M d) (hf : ∀ a, D.Undoes post U i (C (.ok a)) H L M F (f a)) :
    D.Undoes post U i c H K M F (m >>= f) := by
  intro s hc hK hH
  rw [Spec.ensures_bind]
  refine (hm s hc hK hH).mono (fun r u => ?_)
  rintro ⟨hcl, hLu, hHu⟩
  cases r with
  | ok a => exact hf a u hcl hLu hHu
  | error e => exact ⟨fun hF => hcl (he e hF), hL _ hLu, hHu⟩

theorem adaptErr {m : Fallible Sg ε' α} (f : ε' → ε)
    (hm : D.Undoes post U i c H K L (fun r => C (r.mapError f)) m) :
    D.Undoes post U i c H K L C (Fallible.adaptErr f m) := by
  intro s hc hK hH
  rw [Spec.ensures_adaptErr]
  exact hm s hc hK hH

theorem locked {l : Sg.Lock} {m : Fallible Sg ε α} (hK : D.Guarded H K)
    (hL : D.Guarded (insert l H) L) (hl : l ∉ H)
    (hm : D.Undoes post U i c (insert l H) K L C m) :
    D.Undoes post U i c H K L C (Fallible.locked l m) := by
  intro s hc hKs hH
  rw [Spec.ensures_locked]
  intro s' hr _
  refine ⟨trivial, fun _ => ⟨trivial, ?_⟩⟩
  have hne (n : Sg.Lock) (hn : n ∈ H) : n ≠ l := by rintro rfl; exact hl hn
  have hH' : ∀ n ∈ insert l H, (s'.acquire i l).held n = some i := by
    intro n hn
    rcases Set.mem_insert_iff.mp hn with rfl | hnH
    · exact s'.acquire_held_self i n
    · rw [s'.acquire_held_ne i (hne n hnH), hr.held, hH n hnH]
  have hc' (h : c) : Clean U i s' := clean_rely (hc h) hr
  have hK' : K s'.data := hK.rely hH hr hKs
  refine (hm (s'.acquire i l) hc' hK' hH').mono (fun r u => ?_)
  rintro ⟨hcl, hLu, hHu⟩ u' hru _
  have hHu' : ∀ n ∈ insert l H, u'.held n = some i := fun n hn => (hru.held n).mpr (hHu n hn)
  have hcl' (h : C r) : Clean U i u' := clean_rely (hcl h) hru
  have hLu' : L u'.data := hL.rely hHu hru hLu
  refine ⟨hHu' l (Set.mem_insert l H), trivial, hcl', hLu', fun n hn => ?_⟩
  rw [u'.release_held_ne (hne n hn)]
  exact hHu' n (Set.mem_insert_of_mem l hn)

theorem of_false {m : Fallible Sg ε α} (h : D.Undoes post U i False H K L C m) :
    D.Undoes post U i c H K L C m := fun s _ => h s False.elim

theorem weaken {m : Fallible Sg ε α} {K' L' : S → Prop} (hK : ∀ d, K' d → K d)
    (hL : ∀ d, L d → L' d) (h : D.Undoes post U i c H K L C m) :
    D.Undoes post U i c H K' L' C m := fun s hc hs hH =>
  (h s hc (hK _ hs) hH).mono (fun _ _ hu => ⟨hu.1, hL _ hu.2.1, hu.2.2⟩)

/-- An operation that may refuse: refused it is undone, and once it is made what
follows cannot fail. -/
theorem attempt {m : Fallible Sg ε (Except ε' α)} {g : ε' → ε} {f : α → Fallible Sg ε β}
    {F : Except ε β → Prop} (hm : D.Undoes post U i c H K L (fun r => ∀ a, r ≠ .ok (.ok a)) m)
    (hL : ∀ d, L d → M d) (hf : ∀ a, D.Undoes post U i False H L M F (f a)) :
    D.Undoes post U i c H K M F (m >>= fun x => Fallible.mapErr g x >>= f) := by
  refine hm.bind (fun e _ a h => by cases h) hL (fun x => ?_)
  cases x with
  | ok a => exact .of_false (hf a)
  | error e => exact .weaken (fun _ h => h) hL (.throw (fun _ a h => by cases h))

theorem read {o : Sg.Op} {f : Sg.Resp o → Fallible Sg ε α} (hG : D.Guarded H K)
    (hn : ∀ l, D.need o l → l ∈ H) (ho : ∀ d, (sys.exec o d).2 = d)
    (hU : ∀ d, U ⟨i, o, (sys.exec o d).1, d⟩)
    (hf : ∀ x, D.Undoes post U i c H (fun d => K d ∧ (sys.exec o d).1 = x) L C (f x)) :
    D.Undoes post U i c H K L C (Fallible.perform o >>= f) := by
  intro s hc hK hH
  rw [Spec.ensures_perform_bind]
  intro s' hr _ _
  have hH' : ∀ l ∈ H, s'.held l = some i := fun l hl => (hr.held l).mpr (hH l hl)
  refine ⟨fun l hl => hH' l (hn l hl), ⟨trivial, trivial⟩, ?_⟩
  refine hf _ (s'.perform sys.exec i o) (fun h e he hei => ?_) ⟨?_, ?_⟩ hH'
  · rcases List.mem_cons.mp he with rfl | he
    · exact hU _
    · exact clean_rely (hc h) hr e he hei
  · rw [Shared.perform_data, ho]
    exact hG.rely hH hr hK
  · rw [Shared.perform_data, ho]

end Undoes

end Discipline

end AiterCommerce.Concurrent
