import AiterCommerce.Concurrent.Prog
import Mathlib.Logic.Relation

namespace AiterCommerce.Concurrent

variable {Sg : Interface} {S Q R : Type}

/-- A task of a run: its place in the order of arrival and what it was asked. -/
structure Name (Q : Type) where
  index : Nat
  request : Q
  deriving DecidableEq

structure Event (Sg : Interface) (S Q : Type) where
  actor : Name Q
  op : Sg.Op
  resp : Sg.Resp op
  before : S

/-- What all tasks share. `history` lists the performed operations, newest
first; no program reads it. -/
structure Shared (Sg : Interface) (S Q : Type) where
  data : S
  held : Sg.Lock → Option (Name Q)
  history : List (Event Sg S Q)

/-- The programs that answer requests, over operations that act on the data. -/
structure System (Sg : Interface) (S Q R : Type) where
  exec : (o : Sg.Op) → S → Sg.Resp o × S
  handler : Q → Prog Sg R

namespace Shared

def start (d : S) : Shared Sg S Q := ⟨d, fun _ => none, []⟩

def perform (exec : (o : Sg.Op) → S → Sg.Resp o × S) (i : Name Q) (o : Sg.Op)
    (s : Shared Sg S Q) : Shared Sg S Q :=
  { s with data := (exec o s.data).2, history := ⟨i, o, (exec o s.data).1, s.data⟩ :: s.history }

structure Newcomer (s : Shared Sg S Q) (i : Name Q) : Prop where
  history : ∀ e ∈ s.history, e.actor ≠ i
  held : ∀ l, s.held l ≠ some i

variable [DecidableEq Sg.Lock] [DecidableEq Q]

def acquire (i : Name Q) (l : Sg.Lock) (s : Shared Sg S Q) : Shared Sg S Q :=
  { s with held := Function.update s.held l (some i) }

def release (l : Sg.Lock) (s : Shared Sg S Q) : Shared Sg S Q :=
  { s with held := Function.update s.held l none }

def abandon (i : Name Q) (s : Shared Sg S Q) : Shared Sg S Q :=
  { s with held := fun l => if s.held l = some i then none else s.held l }

omit [DecidableEq Sg.Lock] [DecidableEq Q] in
@[simp] theorem perform_held (exec : (o : Sg.Op) → S → Sg.Resp o × S) (i : Name Q) (o : Sg.Op)
    (s : Shared Sg S Q) : (s.perform exec i o).held = s.held := rfl

omit [DecidableEq Sg.Lock] [DecidableEq Q] in
@[simp] theorem perform_data (exec : (o : Sg.Op) → S → Sg.Resp o × S) (i : Name Q) (o : Sg.Op)
    (s : Shared Sg S Q) : (s.perform exec i o).data = (exec o s.data).2 := rfl

omit [DecidableEq Sg.Lock] [DecidableEq Q] in
@[simp] theorem perform_history (exec : (o : Sg.Op) → S → Sg.Resp o × S) (i : Name Q) (o : Sg.Op)
    (s : Shared Sg S Q) :
    (s.perform exec i o).history = ⟨i, o, (exec o s.data).1, s.data⟩ :: s.history := rfl

omit [DecidableEq Q] in
@[simp] theorem acquire_data (i : Name Q) (l : Sg.Lock) (s : Shared Sg S Q) :
    (s.acquire i l).data = s.data := rfl

omit [DecidableEq Q] in
@[simp] theorem acquire_history (i : Name Q) (l : Sg.Lock) (s : Shared Sg S Q) :
    (s.acquire i l).history = s.history := rfl

omit [DecidableEq Q] in
@[simp] theorem acquire_held_self (i : Name Q) (l : Sg.Lock) (s : Shared Sg S Q) :
    (s.acquire i l).held l = some i := by
  simp [acquire]

omit [DecidableEq Q] in
theorem acquire_held_ne (i : Name Q) {l m : Sg.Lock} (h : m ≠ l) (s : Shared Sg S Q) :
    (s.acquire i l).held m = s.held m := by
  simp [acquire, h]

omit [DecidableEq Q] in
@[simp] theorem release_data (l : Sg.Lock) (s : Shared Sg S Q) : (s.release l).data = s.data := rfl

omit [DecidableEq Q] in
@[simp] theorem release_history (l : Sg.Lock) (s : Shared Sg S Q) :
    (s.release l).history = s.history := rfl

omit [DecidableEq Q] in
@[simp] theorem release_held_self (l : Sg.Lock) (s : Shared Sg S Q) :
    (s.release l).held l = none := by
  simp [release]

omit [DecidableEq Q] in
theorem release_held_ne {l m : Sg.Lock} (h : m ≠ l) (s : Shared Sg S Q) :
    (s.release l).held m = s.held m := by
  simp [release, h]

omit [DecidableEq Sg.Lock] in
@[simp] theorem abandon_data (i : Name Q) (s : Shared Sg S Q) : (s.abandon i).data = s.data := rfl

omit [DecidableEq Sg.Lock] in
@[simp] theorem abandon_history (i : Name Q) (s : Shared Sg S Q) :
    (s.abandon i).history = s.history := rfl

end Shared

/-- A task with what is left of its program, `none` once it was dropped. -/
structure Proc (Sg : Interface) (Q R : Type) where
  request : Q
  rest : Option (Prog Sg R)

structure World (Sg : Interface) (S Q R : Type) where
  shared : Shared Sg S Q
  procs : List (Proc Sg Q R)

def World.start (d : S) : World Sg S Q R := ⟨.start d, []⟩

def World.returned (c : World Sg S Q R) (n : Nat) : Option (Q × R) :=
  match c.procs[n]? with
  | some ⟨q, some (.ret r)⟩ => some (q, r)
  | _ => none

/-- What the scheduler may do next: let a new request in, let a task take its
next step, or drop a task that waits for a lock. -/
inductive Action (Q : Type)
  | spawn (q : Q)
  | step (i : Nat)
  | drop (i : Nat)

namespace System

variable [DecidableEq Sg.Lock] [DecidableEq Q] (sys : System Sg S Q R)

/-- One step of a task. It cannot step if it has returned, or waits for a lock
that is taken. -/
def advance (i : Name Q) : Prog Sg R → Shared Sg S Q → Option (Shared Sg S Q × Prog Sg R)
  | .ret _, _ => none
  | .op o k, s => some (s.perform sys.exec i o, k (sys.exec o s.data).1)
  | .lock l k, s => if s.held l = none then some (s.acquire i l, k) else none
  | .unlock l k, s => if s.held l = some i then some (s.release l, k) else none

def next (c : World Sg S Q R) : Action Q → Option (World Sg S Q R)
  | .spawn q => some { c with procs := c.procs ++ [⟨q, some (sys.handler q)⟩] }
  | .step i =>
      match c.procs[i]? with
      | some ⟨q, some t⟩ =>
          (sys.advance ⟨i, q⟩ t c.shared).map
            (fun (s, t') => ⟨s, c.procs.set i ⟨q, some t'⟩⟩)
      | _ => none
  | .drop i =>
      match c.procs[i]? with
      | some ⟨q, some (.lock _ _)⟩ =>
          some ⟨c.shared.abandon ⟨i, q⟩, c.procs.set i ⟨q, none⟩⟩
      | _ => none

variable {sys} in
theorem next_step {c : World Sg S Q R} {n : Nat} {q : Q} {t t' : Prog Sg R} {s : Shared Sg S Q}
    (hn : c.procs[n]? = some ⟨q, some t⟩) (hs : sys.advance ⟨n, q⟩ t c.shared = some (s, t')) :
    sys.next c (.step n) = some ⟨s, c.procs.set n ⟨q, some t'⟩⟩ := by
  simp only [next, hn, hs, Option.map_some]

/-- Runs whose every action meets the condition `A` where it is taken. -/
def Runs (A : World Sg S Q R → Action Q → Prop) : World Sg S Q R → World Sg S Q R → Prop :=
  Relation.ReflTransGen (fun c c' => ∃ a, A c a ∧ sys.next c a = some c')

def enter (n : Nat) (q : Q) (steps : Nat) : List (Action Q) :=
  .spawn q :: List.replicate steps (.step n)

section Play

variable (A : World Sg S Q R → Action Q → Prop) [∀ c a, Decidable (A c a)]

/-- Play a list of actions; `none` when one of them is not possible or does not
meet the condition. -/
def play (c : World Sg S Q R) : List (Action Q) → Option (World Sg S Q R)
  | [] => some c
  | a :: as => if A c a then (sys.next c a).bind (fun c' => play c' as) else none

variable {A} {sys}

theorem play_runs {c c' : World Sg S Q R} {as : List (Action Q)}
    (h : sys.play A c as = some c') : sys.Runs A c c' := by
  induction as generalizing c with
  | nil => cases h; exact .refl
  | cons a as ih =>
      rw [play] at h
      split at h
      next ha =>
        obtain ⟨d, hn, hd⟩ := Option.bind_eq_some_iff.mp h
        exact .head ⟨a, ha, hn⟩ (ih hd)
      next => cases h

end Play

variable {sys}

theorem Runs.mono {A B : World Sg S Q R → Action Q → Prop} (hAB : ∀ c a, A c a → B c a)
    {c c' : World Sg S Q R} (h : sys.Runs A c c') : sys.Runs B c c' :=
  Relation.ReflTransGen.mono (fun _ _ ⟨a, ha, hn⟩ => ⟨a, hAB _ a ha, hn⟩) _ _ h

theorem Runs.invariant {A : World Sg S Q R → Action Q → Prop} {I : World Sg S Q R → Prop}
    (hstep : ∀ c a c', I c → A c a → sys.next c a = some c' → I c')
    {c c' : World Sg S Q R} (h : sys.Runs A c c') (hc : I c) : I c' := by
  induction h with
  | refl => exact hc
  | tail _ hs ih =>
      obtain ⟨a, ha, hn⟩ := hs
      exact hstep _ a _ ih ha hn

theorem advance_cases {i : Name Q} {t t' : Prog Sg R} {s s' : Shared Sg S Q}
    (h : sys.advance i t s = some (s', t')) :
    (∃ o k, t = .op o k ∧ s' = s.perform sys.exec i o ∧ t' = k (sys.exec o s.data).1) ∨
      ∃ l, (t = .lock l t' ∨ t = .unlock l t') ∧ s'.data = s.data ∧ s'.history = s.history := by
  cases t with
  | ret r => cases h
  | op o k =>
      obtain ⟨rfl, rfl⟩ := by simpa [advance] using h
      exact .inl ⟨o, k, rfl, rfl, rfl⟩
  | lock l k =>
      simp only [advance] at h
      split at h
      · obtain ⟨rfl, rfl⟩ := by simpa using h
        exact .inr ⟨l, .inl rfl, rfl, rfl⟩
      · cases h
  | unlock l k =>
      simp only [advance] at h
      split at h
      · obtain ⟨rfl, rfl⟩ := by simpa using h
        exact .inr ⟨l, .inr rfl, rfl, rfl⟩
      · cases h

/-- An action performs one operation of one task, or leaves data and history alone. -/
theorem next_cases {c c' : World Sg S Q R} {a : Action Q} (h : sys.next c a = some c') :
    (∃ n q o k, a = .step n ∧ c.procs[n]? = some ⟨q, some (.op o k)⟩ ∧
      c'.shared = c.shared.perform sys.exec ⟨n, q⟩ o) ∨
      c'.shared.data = c.shared.data ∧ c'.shared.history = c.shared.history := by
  cases a with
  | spawn q => cases h; exact .inr ⟨rfl, rfl⟩
  | step n =>
      simp only [next] at h
      split at h
      next q t hp =>
        obtain ⟨⟨s', t'⟩, hs, rfl⟩ := Option.map_eq_some_iff.mp h
        rcases advance_cases hs with ⟨o, k, rfl, rfl, -⟩ | ⟨l, -, hd, hh⟩
        · exact .inl ⟨n, q, o, k, rfl, hp, rfl⟩
        · exact .inr ⟨hd, hh⟩
      next => cases h
  | drop n =>
      simp only [next] at h
      split at h
      · cases h; exact .inr ⟨rfl, rfl⟩
      · cases h

theorem Runs.history {A : World Sg S Q R → Action Q → Prop} {c c' : World Sg S Q R}
    (h : sys.Runs A c c') : c.shared.history <:+ c'.shared.history := by
  refine h.invariant (I := fun w => c.shared.history <:+ w.shared.history) ?_ List.suffix_rfl
  intro w a w' hw _ hn
  rcases next_cases hn with ⟨n, q, o, k, -, -, hs⟩ | ⟨-, hh⟩
  · rw [hs]
    exact hw.trans (List.suffix_cons _ _)
  · rwa [hh]

/-- Every task still keeps to the operations of its request, as those who
performed something did. -/
structure Within (performs : Q → Sg.Op → Prop) (c : World Sg S Q R) : Prop where
  tasks : ∀ p ∈ c.procs, ∀ t, p.rest = some t → t.All (performs p.request)
  events : ∀ e ∈ c.shared.history, performs e.actor.request e.op

theorem Within.next {performs : Q → Sg.Op → Prop} (hq : ∀ q, (sys.handler q).All (performs q))
    {c c' : World Sg S Q R} {a : Action Q} (hc : Within performs c)
    (h : sys.next c a = some c') : Within performs c' := by
  cases a with
  | spawn q =>
      cases h
      refine ⟨fun p hp t ht => ?_, hc.events⟩
      rcases List.mem_append.mp hp with hp | hp
      · exact hc.tasks p hp t ht
      · obtain rfl := List.mem_singleton.mp hp
        cases ht
        exact hq q
  | step n =>
      simp only [System.next] at h
      split at h
      next q t hp =>
        obtain ⟨⟨s', t'⟩, hs, rfl⟩ := Option.map_eq_some_iff.mp h
        have ht := hc.tasks _ (List.mem_of_getElem? hp) t rfl
        have rest (ht' : t'.All (performs q)) :
            ∀ p ∈ c.procs.set n ⟨q, some t'⟩, ∀ u, p.rest = some u → u.All (performs p.request) := by
          intro p hp u hu
          rcases List.mem_or_eq_of_mem_set hp with hp | rfl
          · exact hc.tasks p hp u hu
          · cases hu
            exact ht'
        rcases advance_cases hs with ⟨o, k, rfl, rfl, rfl⟩ | ⟨l, rfl | rfl, -, hh⟩
        · exact ⟨rest (ht.2 _), List.forall_mem_cons.mpr ⟨ht.1, hc.events⟩⟩
        · exact ⟨rest ht, fun e he => hc.events e (hh ▸ he)⟩
        · exact ⟨rest ht, fun e he => hc.events e (hh ▸ he)⟩
      next => cases h
  | drop n =>
      simp only [System.next] at h
      split at h
      · cases h
        refine ⟨fun p hp t ht => ?_, hc.events⟩
        rcases List.mem_or_eq_of_mem_set hp with hp | rfl
        · exact hc.tasks p hp t ht
        · cases ht
      · cases h

/-- What happened in a run is what the requests in it may do. -/
theorem Runs.performs {performs : Q → Sg.Op → Prop} (hq : ∀ q, (sys.handler q).All (performs q))
    {A : World Sg S Q R → Action Q → Prop} {d : S} {c : World Sg S Q R}
    (h : sys.Runs A (.start d) c) : ∀ e ∈ c.shared.history, performs e.actor.request e.op := by
  have hstart : Within performs (World.start d : World Sg S Q R) :=
    { tasks := fun _ hp => (by cases hp), events := fun _ he => (by cases he) }
  have hw := h.invariant (I := Within performs) (fun _ _ _ hc _ hn => hc.next hq hn) hstart
  exact hw.events

end System

end AiterCommerce.Concurrent
