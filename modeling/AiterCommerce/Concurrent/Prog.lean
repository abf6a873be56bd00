import Mathlib.Data.Set.Insert
import Mathlib.Order.BooleanAlgebra.Set

namespace AiterCommerce.Concurrent

/-- The operations a program performs on shared state, the type each of them
answers, and the names of the locks a program may take. -/
structure Interface where
  Op : Type
  Resp : Op → Type
  Lock : Type

/-- A program as the tree of its interactions with the shared state. Taking a
lock is the only place where a running program may have to wait. -/
inductive Prog (Sg : Interface) (R : Type) : Type
  | ret (r : R)
  | op (o : Sg.Op) (k : Sg.Resp o → Prog Sg R)
  | lock (l : Sg.Lock) (k : Prog Sg R)
  | unlock (l : Sg.Lock) (k : Prog Sg R)

abbrev Interface.sum (Sg Sg' : Interface) : Interface :=
  ⟨Sg.Op ⊕ Sg'.Op, Sum.elim Sg.Resp Sg'.Resp, Sg.Lock ⊕ Sg'.Lock⟩

namespace Prog

variable {Sg Sg' : Interface} {R T U S : Type}

def bind : Prog Sg R → (R → Prog Sg T) → Prog Sg T
  | .ret r, f => f r
  | .op o k, f => .op o (fun x => (k x).bind f)
  | .lock l k, f => .lock l (k.bind f)
  | .unlock l k, f => .unlock l (k.bind f)

instance : Monad (Prog Sg) where
  pure := .ret
  bind := bind

theorem bind_ret (t : Prog Sg R) : t.bind .ret = t := by
  induction t with
  | ret r => rfl
  | op o k ih => simp only [bind, ih]
  | lock l k ih | unlock l k ih => simp only [bind, ih]

theorem bind_assoc (t : Prog Sg R) (f : R → Prog Sg T) (g : T → Prog Sg U) :
    (t.bind f).bind g = t.bind (fun r => (f r).bind g) := by
  induction t with
  | ret r => rfl
  | op o k ih => simp only [bind, ih]
  | lock l k ih | unlock l k ih => simp only [bind, ih]

instance : LawfulMonad (Prog Sg) :=
  LawfulMonad.mk' _ bind_ret (fun _ _ => rfl) bind_assoc

def perform (o : Sg.Op) : Prog Sg (Sg.Resp o) := .op o .ret

/-- A body run under a lock: the guard is dropped when the body returns, on
every path out of it. -/
def locked (l : Sg.Lock) (body : Prog Sg R) : Prog Sg R :=
  .lock l (body.bind (fun r => .unlock l (.ret r)))

def inl : Prog Sg R → Prog (Sg.sum Sg') R
  | .ret r => .ret r
  | .op o k => .op (.inl o) (fun x => (k x).inl)
  | .lock l k => .lock (.inl l) k.inl
  | .unlock l k => .unlock (.inl l) k.inl

/-- Run a program alone from start to end. Nobody else holds a lock then, so
taking and dropping one has no effect on the data. -/
def run (exec : (o : Sg.Op) → S → Sg.Resp o × S) : Prog Sg R → S → R × S
  | .ret r, s => (r, s)
  | .op o k, s => (k (exec o s).1).run exec (exec o s).2
  | .lock _ k, s | .unlock _ k, s => k.run exec s

section Run

variable (exec : (o : Sg.Op) → S → Sg.Resp o × S)

theorem run_bind (t : Prog Sg R) (f : R → Prog Sg T) (s : S) :
    (t.bind f).run exec s = (f (t.run exec s).1).run exec (t.run exec s).2 := by
  induction t generalizing s with
  | ret r => rfl
  | op o k ih => exact ih _ _
  | lock l k ih | unlock l k ih => exact ih s

theorem run_perform (o : Sg.Op) (s : S) : (perform o).run exec s = exec o s := rfl

theorem run_locked (l : Sg.Lock) (body : Prog Sg R) (s : S) :
    (locked l body).run exec s = body.run exec s := by
  simp only [locked, run, run_bind]

end Run

/-- Every operation a program can ever perform satisfies `P`. -/
def All (P : Sg.Op → Prop) : Prog Sg R → Prop
  | .ret _ => True
  | .op o k => P o ∧ ∀ x, (k x).All P
  | .lock _ k | .unlock _ k => k.All P

theorem run_frame {α : Type} {exec : (o : Sg.Op) → S → Sg.Resp o × S} {P : Sg.Op → Prop}
    {part : S → α} (hP : ∀ o, P o → ∀ s, part (exec o s).2 = part s)
    {t : Prog Sg R} (h : t.All P) (s : S) : part (t.run exec s).2 = part s := by
  induction t generalizing s with
  | ret r => rfl
  | op o k ih => rw [run, ih _ (h.2 _), hP o h.1]
  | lock l k ih | unlock l k ih => exact ih h s

/-- The program performs an operation only where it may with the locks it holds
there, never takes a lock it holds and drops only what it holds. It starts with
the locks `H` and returns with the locks `H'`. -/
def Respects (may : Set Sg.Lock → Sg.Op → Prop) (H' : Set Sg.Lock) :
    Set Sg.Lock → Prog Sg R → Prop
  | H, .ret _ => H = H'
  | H, .op o k => may H o ∧ ∀ x, (k x).Respects may H' H
  | H, .lock l k => l ∉ H ∧ k.Respects may H' (insert l H)
  | H, .unlock l k => l ∈ H ∧ k.Respects may H' (H \ {l})

section Respects

variable {may may' : Set Sg.Lock → Sg.Op → Prop} {H K L : Set Sg.Lock}

theorem Respects.bind {t : Prog Sg R} {f : R → Prog Sg T} (ht : t.Respects may K H)
    (hf : ∀ r, (f r).Respects may L K) : (t.bind f).Respects may L H := by
  induction t generalizing H with
  | ret r => exact ht ▸ hf r
  | op o k ih => exact ⟨ht.1, fun x => ih x (ht.2 x)⟩
  | lock l k ih | unlock l k ih => exact ⟨ht.1, ih ht.2⟩

theorem Respects.locked {l : Sg.Lock} {body : Prog Sg R} (hl : l ∉ H)
    (h : body.Respects may (insert l H) (insert l H)) : (Prog.locked l body).Respects may H H := by
  refine ⟨hl, h.bind (fun r => ⟨Set.mem_insert l H, ?_⟩)⟩
  exact Set.insert_sdiff_self_of_notMem hl

theorem Respects.mono (hm : ∀ H o, may H o → may' H o) {t : Prog Sg R}
    (h : t.Respects may K H) : t.Respects may' K H := by
  induction t generalizing H with
  | ret r => exact h
  | op o k ih => exact ⟨hm H o h.1, fun x => ih x (h.2 x)⟩
  | lock l k ih | unlock l k ih => exact ⟨h.1, ih h.2⟩

theorem Respects.all {P : Sg.Op → Prop} (hm : ∀ H o, may H o → P o) {t : Prog Sg R}
    (h : t.Respects may K H) : t.All P := by
  induction t generalizing H with
  | ret r => trivial
  | op o k ih => exact ⟨hm H o h.1, fun x => ih x (h.2 x)⟩
  | lock l k ih | unlock l k ih => exact ih h.2

end Respects

end Prog

end AiterCommerce.Concurrent
