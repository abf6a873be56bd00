import Mathlib.Data.List.Basic

namespace AiterCommerce.Machine

variable {S T C E F : Type}

/-- The state after a call. A failed call leaves it as it was. -/
def attempt (step : S → C → Except E S) (s : S) (c : C) : S :=
  match step s c with
  | .ok next => next
  | .error _ => s

def history (step : S → C → Except E S) (s : S) (cs : List C) : S := cs.foldl (attempt step) s

/-- The calls of a history that pass a test on the state they are made in. -/
def kept (step : S → C → Except E S) (test : S → C → Bool) : S → List C → List C
  | _, [] => []
  | s, c :: cs =>
      if test s c then c :: kept step test (attempt step s c) cs
      else kept step test (attempt step s c) cs

section Calls

variable {step : S → C → Except E S} {s : S} {c : C}

theorem attempt_ok {next : S} (h : step s c = .ok next) : attempt step s c = next := by
  rw [attempt, h]

theorem attempt_error {e : E} (h : step s c = .error e) : attempt step s c = s := by
  rw [attempt, h]

end Calls

section Runs

variable {step : S → C → Except E S} {step' : T → C → Except F T} {s : S} {t : T}

theorem history_inv {P : S → Prop} (hs : P s) (hstep : ∀ s c, P s → P (attempt step s c))
    (cs : List C) : P (history step s cs) := by
  induction cs generalizing s with
  | nil => exact hs
  | cons c cs ih => exact ih (hstep s c hs)

theorem history_rel {R : S → T → Prop} (hs : R s t)
    (hstep : ∀ s t c, R s t → R (attempt step s c) (attempt step' t c)) (cs : List C) :
    R (history step s cs) (history step' t cs) := by
  induction cs generalizing s t with
  | nil => exact hs
  | cons c cs ih => exact ih (hstep s t c hs)

/-- The calls that change nothing may be left out. -/
theorem history_kept {test : S → C → Bool}
    (hidle : ∀ s c, test s c = false → attempt step s c = s) (s : S) (cs : List C) :
    history step s (kept step test s cs) = history step s cs := by
  induction cs generalizing s with
  | nil => rfl
  | cons c cs ih =>
      rw [kept]
      split
      next h => exact ih (attempt step s c)
      next h =>
        have hsame := hidle s c (by simpa using h)
        rw [hsame, ih s]
        change history step s cs = history step (attempt step s c) cs
        rw [hsame]

end Runs

end AiterCommerce.Machine
