import AiterCommerce.Concurrent.Own

namespace AiterCommerce.Concurrent

variable {Sg : Interface} {S Q R : Type} [DecidableEq Sg.Lock] [DecidableEq Q]
  {sys : System Sg S Q R} {c : World Sg S Q R}

/-- A moment of a run where the task is about to perform the operation, and this is what it will
be answered. -/
structure System.Moment (sys : System Sg S Q R) (A : World Sg S Q R → Action Q → Prop) (d : S)
    (i : Name Q) (x : Done Sg) (w : World Sg S Q R) : Prop where
  reached : sys.Runs A (.start d) w
  pending : ∃ k, w.procs[i.index]? = some ⟨i.request, some (.op x.op k)⟩
  resp : x.resp = (sys.exec x.op w.shared.data).1

theorem System.Runs.moment_of_own {A : World Sg S Q R → Action Q → Prop} {d : S}
    {c' : World Sg S Q R} (h : sys.Runs A (.start d) c) (h' : sys.Runs A c c') {n : Nat} {q : Q}
    (hn : c.procs.length ≤ n) {x : Done Sg} (hx : x ∈ own ⟨n, q⟩ c'.shared.history) :
    ∃ w w', sys.Runs A c w ∧ x.resp = (sys.exec x.op w.shared.data).1 ∧ sys.Runs A w w' ∧
      w'.shared.data = (sys.exec x.op w.shared.data).2 ∧ sys.Runs A w' c' := by
  have hany (q : Q) : (sys.handler q).Always (fun _ _ => True) (fun _ _ => True) [] :=
    (Prog.all_of_forall (A := fun _ => True) (fun _ => trivial) _).always (fun _ _ _ => trivial)
      (fun _ _ => trivial) []
  obtain ⟨e, he, hactor, rfl⟩ := mem_own.mp hx
  rcases h'.moment e he with hold | ⟨w, w', hw, hbefore, hww', hafter, hw'⟩
  · have hlt := (h.along (K := ⟨fun _ _ _ => True, fun _ _ _ => True⟩) hany).actors e hold
    rw [hactor] at hlt
    exact absurd hlt (Nat.not_lt.mpr hn)
  · have hall : sys.Runs A (.start d) c' := h.trans h'
    have hresp : e.resp = (sys.exec e.op e.before).1 := hall.answered e he
    exact ⟨w, w', hw, hbefore ▸ hresp, hww', hbefore ▸ hafter, hw'⟩

/-- Everything a task has done was done at moments of the run, one after the other, the newest
first. -/
theorem System.Runs.moments {A : World Sg S Q R → Action Q → Prop} {d : S}
    (h : sys.Runs A (.start d) c) (i : Name Q) :
    ∃ ws, List.Forall₂ (sys.Moment A d i) (own i c.shared.history) ws ∧
      (c :: (ws ++ [.start d])).Pairwise (fun later earlier => sys.Runs A earlier later) := by
  induction h with
  | refl => exact ⟨[], .nil, List.pairwise_pair.mpr .refl⟩
  | @tail w w' hr hs ih =>
      obtain ⟨ws, hat, hordered⟩ := ih
      obtain ⟨a, ha, hn⟩ := hs
      have hone : sys.Runs A w w' := .single ⟨a, ha, hn⟩
      have hlater : ∀ u ∈ w :: (ws ++ [.start d]), sys.Runs A u w' := by
        intro u hu
        rcases List.mem_cons.mp hu with rfl | hu
        · exact hone
        · exact ((List.pairwise_cons.mp hordered).1 u hu).trans hone
      -- what the task did stays as it was unless it is its step
      have hother (hown : own i w'.shared.history = own i w.shared.history) :
          ∃ ws, List.Forall₂ (sys.Moment A d i) (own i w'.shared.history) ws ∧
            (w' :: (ws ++ [.start d])).Pairwise (fun later earlier => sys.Runs A earlier later) := by
        refine ⟨ws, hown ▸ hat, List.pairwise_cons.mpr ⟨fun u hu => ?_, hordered.of_cons⟩⟩
        exact hlater u (List.mem_cons_of_mem w hu)
      rcases next_cases hn with ⟨n, q, o, k, rfl, hp, hs⟩ | ⟨-, hh⟩
      · by_cases hi : (⟨n, q⟩ : Name Q) = i
        · subst hi
          refine ⟨w :: ws, ?_, List.pairwise_cons.mpr ⟨hlater, hordered⟩⟩
          have hown := own_cons_self (⟨⟨n, q⟩, o, (sys.exec o w.shared.data).1, w.shared.data⟩ :
            Event Sg S Q) w.shared.history
          rw [hs, Shared.perform_history, hown]
          exact .cons ⟨hr, ⟨k, hp⟩, rfl⟩ hat
        · apply hother
          rw [hs, Shared.perform_history, own_cons_ne hi]
      · exact hother (congrArg (own i) hh)

end AiterCommerce.Concurrent
