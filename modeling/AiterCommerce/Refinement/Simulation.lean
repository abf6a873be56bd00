import Mathlib.Data.List.Basic

namespace AiterCommerce.Refinement

variable {I O S J P T : Type}

def trace (step : S → I → O × S) : S → List I → List (I × O)
  | _, [] => []
  | s, i :: is => (i, (step s i).1) :: trace step (step s i).2 is

def final (step : S → I → O × S) : S → List I → S
  | s, [] => s
  | s, i :: is => final step (step s i).2 is

/-- Some answers of the first machine show as an input and an answer of the second;
the others leave no trace in it. -/
structure Simulation (step : S → I → O × S) (step' : T → J → P × T)
    (view : I × O → Option (J × P)) (rel : S → T → Prop) : Prop where
  hidden : ∀ s t i, rel s t → view (i, (step s i).1) = none → rel (step s i).2 t
  visible : ∀ s t i j p, rel s t → view (i, (step s i).1) = some (j, p) →
    (step' t j).1 = p ∧ rel (step s i).2 (step' t j).2

namespace Simulation

variable {step : S → I → O × S} {step' : T → J → P × T} {view : I × O → Option (J × P)}
  {rel : S → T → Prop}

theorem trace_eq (h : Simulation step step' view rel) {s : S} {t : T} (hr : rel s t)
    (is : List I) :
    trace step' t (((trace step s is).filterMap view).map Prod.fst) =
      (trace step s is).filterMap view := by
  induction is generalizing s t with
  | nil => rfl
  | cons i is ih =>
      rw [trace]
      cases hv : view (i, (step s i).1) with
      | none =>
          rw [List.filterMap_cons_none hv]
          exact ih (h.hidden s t i hr hv)
      | some jp =>
          obtain ⟨j, p⟩ := jp
          obtain ⟨hp, hr'⟩ := h.visible s t i j p hr hv
          rw [List.filterMap_cons_some hv, List.map_cons, trace, hp, ih hr']

theorem rel_final (h : Simulation step step' view rel) {s : S} {t : T} (hr : rel s t)
    (is : List I) :
    rel (final step s is) (final step' t (((trace step s is).filterMap view).map Prod.fst)) := by
  induction is generalizing s t with
  | nil => exact hr
  | cons i is ih =>
      rw [trace, final]
      cases hv : view (i, (step s i).1) with
      | none =>
          rw [List.filterMap_cons_none hv]
          exact ih (h.hidden s t i hr hv)
      | some jp =>
          obtain ⟨j, p⟩ := jp
          obtain ⟨_, hr'⟩ := h.visible s t i j p hr hv
          rw [List.filterMap_cons_some hv, List.map_cons, final]
          exact ih hr'

end Simulation

end AiterCommerce.Refinement
