import AiterCommerce.Concurrent.Logic
import AiterCommerce.Concurrent.Own
import AiterCommerce.Concurrent.Progress

namespace AiterCommerce.Concurrent

variable {Sg Sg' : Interface} {S S' Q Q' R R' X ι : Type}

namespace Prog

/-- Whatever its operations answer, what the program returns is as it should be. -/
def Yields (ok : R → Prop) : Prog Sg R → Prop
  | .ret r => ok r
  | .op _ k => ∀ x, (k x).Yields ok
  | .lock _ k | .unlock _ k => k.Yields ok

theorem yields_of_forall {ok : R → Prop} (h : ∀ r, ok r) (t : Prog Sg R) : t.Yields ok := by
  induction t with
  | ret r => exact h r
  | op o k ih => exact ih
  | lock l k ih | unlock l k ih => exact ih

theorem yields_bind {ok : X → Prop} (t : Prog Sg R) (f : R → Prog Sg X) :
    (t.bind f).Yields ok ↔ t.Yields (fun r => (f r).Yields ok) := by
  induction t with
  | ret r => exact Iff.rfl
  | op o k ih => exact forall_congr' ih
  | lock l k ih | unlock l k ih => exact ih

end Prog

theorem Spec.Holds.yields [DecidableEq Sg.Lock] [DecidableEq Q] {sys : System Sg S Q R'}
    {P : Spec sys} {i : Name Q} {p : R → Shared Sg S Q → Prop} {ok : R → Prop} {t : Prog Sg R}
    {s : Shared Sg S Q} (h : P.Holds i p t s) (hy : t.Yields ok) :
    P.Holds i (fun r u => p r u ∧ ok r) t s := by
  induction t generalizing s with
  | ret r => exact ⟨h, hy⟩
  | op o k ih =>
      intro s' hr hi ha
      obtain ⟨hn, hg, hk⟩ := h s' hr hi ha
      exact ⟨hn, hg, ih _ hk (hy _)⟩
  | lock l k ih =>
      intro s' hr hi
      obtain ⟨hw, hk⟩ := h s' hr hi
      exact ⟨hw, fun hf => ⟨(hk hf).1, ih (hk hf).2 hy⟩⟩
  | unlock l k ih =>
      intro s' hr hi
      obtain ⟨hh, hg, hk⟩ := h s' hr hi
      exact ⟨hh, hg, ih hk hy⟩

section Outside

variable (inner : System Sg S Q R) (acts : Sg.Op → Bool) (calls : Q → Prop)
  (post : List (Q × R) → R' → Prop)

/-- A program around calls of the handlers of an inner system. It has the calls behind it,
newest first, and holds the locks `H` of the inner system. Between the calls it performs
operations of its own, and of the inner system only those that change nothing; it calls
with no lock of the inner system held. -/
inductive Outside : List (Q × R) → Set Sg.Lock → Prog (Sg.sum Sg') R' → Prop
  | ret {past : List (Q × R)} {r : R'} (h : post past r) : Outside past ∅ (.ret r)
  | edge {past : List (Q × R)} {H : Set Sg.Lock} (o : Sg'.Op)
      (k : Sg'.Resp o → Prog (Sg.sum Sg') R') (h : ∀ x, Outside past H (k x)) :
      Outside past H (.op (.inr o) k)
  | read {past : List (Q × R)} {H : Set Sg.Lock} (o : Sg.Op)
      (k : Sg.Resp o → Prog (Sg.sum Sg') R') (ho : acts o = false)
      (h : ∀ x, Outside past H (k x)) : Outside past H (.op (.inl o) k)
  | lockEdge {past : List (Q × R)} {H : Set Sg.Lock} (l : Sg'.Lock) (k : Prog (Sg.sum Sg') R')
      (h : Outside past H k) : Outside past H (.lock (.inr l) k)
  | unlockEdge {past : List (Q × R)} {H : Set Sg.Lock} (l : Sg'.Lock) (k : Prog (Sg.sum Sg') R')
      (h : Outside past H k) : Outside past H (.unlock (.inr l) k)
  | lock {past : List (Q × R)} {H : Set Sg.Lock} (l : Sg.Lock) (k : Prog (Sg.sum Sg') R')
      (h : Outside past (insert l H) k) : Outside past H (.lock (.inl l) k)
  | unlock {past : List (Q × R)} {H : Set Sg.Lock} (l : Sg.Lock) (k : Prog (Sg.sum Sg') R')
      (h : Outside past (H \ {l}) k) : Outside past H (.unlock (.inl l) k)
  | call {past : List (Q × R)} {ok : R → Prop} (q : Q) (k : R → Prog (Sg.sum Sg') R')
      (hq : calls q) (hok : (inner.handler q).Yields ok)
      (h : ∀ r, ok r → Outside ((q, r) :: past) ∅ (k r)) :
      Outside past ∅ ((inner.handler q).inl.bind k)

variable {inner acts calls post}

theorem Outside.inl_bind [Preorder ι] {rank : Sg.Lock → ι} {past : List (Q × R)}
    {H K : Set Sg.Lock} {f : X → Prog (Sg.sum Sg') R'} {done : List (Done Sg)} {t : Prog Sg X}
    (ht : t.Always (fun _ o => acts o = false)
      (fun _ x => Outside inner acts calls post past K (f x)) done)
    (hord : t.Ordered rank K H) : Outside inner acts calls post past H (t.inl.bind f) := by
  induction t generalizing H done with
  | ret x =>
      obtain rfl : H = K := hord
      exact ht
  | op o k ih => exact .read o _ ht.1 (fun x => ih x (ht.2 x) (hord x))
  | lock l k ih => exact .lock l _ (ih ht hord.2)
  | unlock l k ih => exact .unlock l _ (ih ht hord.2)

end Outside

/-- An outer system that calls the handlers of an inner one and leaves all that the inner
one shares to them. -/
structure Shell (inner : System Sg S Q R) (outer : System (Sg.sum Sg') S' Q' R') where
  data : S' → S
  acts : Sg.Op → Bool
  calls : Q' → Q → Prop
  post : Q' → List (Q × R) → R' → Prop
  exec_resp : ∀ (o : Sg.Op) d, (outer.exec (.inl o) d).1 = (inner.exec o (data d)).1
  exec_data : ∀ (o : Sg.Op) d, data (outer.exec (.inl o) d).2 = (inner.exec o (data d)).2
  exec_edge : ∀ (o : Sg'.Op) d, data (outer.exec (.inr o) d).2 = data d
  exec_read : ∀ o s, acts o = false → (inner.exec o s).2 = s
  outside : ∀ a, Outside inner acts (calls a) (post a) [] ∅ (outer.handler a)

namespace Shell

variable {inner : System Sg S Q R} {outer : System (Sg.sum Sg') S' Q' R'}
  (sh : Shell inner outer)

/-- A call was answered by an inner task, or its handler answers without a single step. -/
def Answered (inner : System Sg S Q R) (w : World Sg S Q R) (x : Q × R) : Prop :=
  (∃ m, w.returned m = some x) ∨ inner.handler x.1 = .ret x.2

/-- What the outer system did of the operations that may change what the inner one shares. -/
def shows (e : Event (Sg.sum Sg') S' Q') : Bool :=
  match e.op with
  | .inl o => sh.acts o
  | .inr _ => false

/-- The same operation with the same answer on the same data, for a request that the request
of the outer system calls. -/
inductive Matches : Event Sg S Q → Event (Sg.sum Sg') S' Q' → Prop
  | intro {i : Name Q} {j : Name Q'} (o : Sg.Op) (x : Sg.Resp o) (d : S')
      (h : sh.calls j.request i.request) : Matches ⟨i, o, x, sh.data d⟩ ⟨j, .inl o, x, d⟩

def Alike (history : List (Event Sg S Q)) (history' : List (Event (Sg.sum Sg') S' Q')) : Prop :=
  List.Forall₂ sh.Matches (history.filter (fun e => sh.acts e.op)) (history'.filter sh.shows)

variable {sh} in
theorem exists_matches {es : List (Event Sg S Q)} {es' : List (Event (Sg.sum Sg') S' Q')}
    {e' : Event (Sg.sum Sg') S' Q'} (he : e' ∈ es') (h : List.Forall₂ sh.Matches es es') :
    ∃ e ∈ es, sh.Matches e e' := by
  induction h with
  | nil => cases he
  | cons hm _ ih =>
      rcases List.mem_cons.mp he with rfl | he
      · exact ⟨_, List.mem_cons_self, hm⟩
      · obtain ⟨e, hes, hm'⟩ := ih he
        exact ⟨e, List.mem_cons_of_mem _ hes, hm'⟩

variable {sh} in
/-- What every inner operation does to the shared data, every outer one does for a request it
calls, or it leaves that data alone. -/
theorem Alike.transfer (rel : Q → S → S → Prop) {history : List (Event Sg S Q)}
    {history' : List (Event (Sg.sum Sg') S' Q')} (h : sh.Alike history history')
    (hrel : ∀ e ∈ history, rel e.actor.request e.before (inner.exec e.op e.before).2)
    {e : Event (Sg.sum Sg') S' Q'} (he : e ∈ history') :
    sh.data (outer.exec e.op e.before).2 = sh.data e.before ∨ ∃ q, sh.calls e.actor.request q ∧
      rel q (sh.data e.before) (sh.data (outer.exec e.op e.before).2) := by
  obtain ⟨j, o, x, d⟩ := e
  cases o with
  | inr o => exact .inl (sh.exec_edge o d)
  | inl o =>
      cases ho : sh.acts o with
      | false => exact .inl ((sh.exec_data o d).trans (sh.exec_read o _ ho))
      | true =>
          have hmem : (⟨j, .inl o, x, d⟩ : Event (Sg.sum Sg') S' Q') ∈ history'.filter sh.shows :=
            List.mem_filter.mpr ⟨he, ho⟩
          obtain ⟨e', he', hmatch⟩ := exists_matches hmem h
          have hold := hrel e' (List.mem_of_mem_filter he')
          cases hmatch with
          | intro o x d hcalls =>
              refine .inr ⟨_, hcalls, ?_⟩
              rw [sh.exec_data]
              exact hold

/-- Where the task of a request stands: between its calls, or in one that an inner task
answers. -/
inductive Phase (w : World Sg S Q R) (a : Q') :
    Option Nat → Set Sg.Lock → Prog (Sg.sum Sg') R' → Prop
  | outside {past : List (Q × R)} {H : Set Sg.Lock} {p : Prog (Sg.sum Sg') R'}
      (h : Outside inner sh.acts (sh.calls a) (sh.post a) past H p)
      (hpast : ∀ x ∈ past, Answered inner w x) : Phase w a none H p
  | inside {past : List (Q × R)} {ok : R → Prop} {m : Nat} {q : Q} {t : Prog Sg R}
      {k : R → Prog (Sg.sum Sg') R'} (hq : sh.calls a q) (hm : w.procs[m]? = some ⟨q, some t⟩)
      (ht : ∀ r, t ≠ .ret r) (hok : t.Yields ok)
      (h : ∀ r, ok r → Outside inner sh.acts (sh.calls a) (sh.post a) ((q, r) :: past) ∅ (k r))
      (hpast : ∀ x ∈ past, Answered inner w x) :
      Phase w a (some m) {l | w.shared.held l = some ⟨m, q⟩} (t.inl.bind k)

def heldBy (s : Shared (Sg.sum Sg') S' Q') (i : Name Q') : Set Sg.Lock :=
  {l | s.held (.inl l) = some i}

/-- The inner world shows what the handlers see of the outer one. `place` is the inner task
each outer one waits for. -/
structure Shows (c : World (Sg.sum Sg') S' Q' R') (w : World Sg S Q R)
    (place : Nat → Option Nat) : Prop where
  data : w.shared.data = sh.data c.shared.data
  history : sh.Alike w.shared.history c.shared.history
  tasks : ∀ n (a : Q') (p : Prog (Sg.sum Sg') R'), c.procs[n]? = some ⟨a, some p⟩ →
    sh.Phase w a (place n) (heldBy c.shared ⟨n, a⟩) p
  distinct : ∀ n n' m, place n = some m → place n' = some m → n = n'
  bound : ∀ n m, place n = some m → n < c.procs.length ∧ m < w.procs.length
  held : ∀ l j, w.shared.held l = some j →
    ∃ n a, place n = some j.index ∧ c.shared.held (.inl l) = some ⟨n, a⟩

section Held

variable [DecidableEq Sg.Lock] [DecidableEq Q] {sys : System Sg S Q R}

theorem advance_others {i : Name Q} {t t' : Prog Sg R} {s s' : Shared Sg S Q}
    (h : sys.advance i t s = some (s', t')) {l : Sg.Lock} {j : Name Q} (hj : j ≠ i) :
    s'.held l = some j ↔ s.held l = some j := by
  cases t with
  | ret r => cases h
  | op o k =>
      cases h
      exact Iff.rfl
  | lock m k =>
      simp only [System.advance] at h
      split at h
      next hf =>
        cases h
        by_cases hl : l = m
        · subst hl
          simp [hf, hj.symm]
        · rw [s.acquire_held_ne i hl]
      next => cases h
  | unlock m k =>
      simp only [System.advance] at h
      split at h
      next hf =>
        cases h
        by_cases hl : l = m
        · subst hl
          simp [hf, hj.symm]
        · rw [s.release_held_ne hl]
      next => cases h

theorem yields_advance {ok : R → Prop} {i : Name Q} {t t' : Prog Sg R} {s s' : Shared Sg S Q}
    (ht : t.Yields ok) (h : sys.advance i t s = some (s', t')) : t'.Yields ok := by
  rcases System.advance_cases h with ⟨o, k, rfl, -, rfl⟩ | ⟨l, rfl | rfl, -, -⟩
  · exact ht _
  · exact ht
  · exact ht

omit [DecidableEq Sg.Lock] in
theorem abandon_held_iff {i j : Name Q} {s : Shared Sg S Q} {l : Sg.Lock} :
    (s.abandon i).held l = some j ↔ s.held l = some j ∧ j ≠ i := by
  simp only [Shared.abandon]
  split
  next h => simp [h, eq_comm]
  next h =>
    constructor
    · intro hj
      exact ⟨hj, fun he => h (he ▸ hj)⟩
    · exact And.left

end Held

section Answers

variable {w : World Sg S Q R}

theorem Answered.set {x : Q × R} (h : Answered inner w x) {m : Nat} {q : Q} {t : Prog Sg R}
    (hm : w.procs[m]? = some ⟨q, some t⟩) (ht : ∀ r, t ≠ .ret r) (s : Shared Sg S Q)
    (p : Proc Sg Q R) : Answered inner ⟨s, w.procs.set m p⟩ x := by
  rcases h with ⟨n, hn⟩ | h
  · have hne : m ≠ n := by
      rintro rfl
      rw [World.returned, hm] at hn
      cases t with
      | ret r => exact ht r rfl
      | op o k | lock l k | unlock l k => cases hn
    refine .inl ⟨n, ?_⟩
    rw [World.returned] at hn ⊢
    rwa [List.getElem?_set_ne hne]
  · exact .inr h

theorem Answered.append {x : Q × R} (h : Answered inner w x) (ps : List (Proc Sg Q R)) :
    Answered inner { w with procs := w.procs ++ ps } x := by
  rcases h with ⟨n, hn⟩ | h
  · refine .inl ⟨n, ?_⟩
    rw [World.returned] at hn ⊢
    cases hp : w.procs[n]? with
    | none =>
        rw [hp] at hn
        cases hn
    | some p =>
        rw [hp] at hn
        rw [List.getElem?_append_left (List.getElem?_eq_some_iff.mp hp).1, hp]
        exact hn
  · exact .inr h

end Answers

variable {sh} {c : World (Sg.sum Sg') S' Q' R'} {w w' : World Sg S Q R} {place : Nat → Option Nat}

theorem Phase.mono {a : Q'} {pl : Option Nat} {H : Set Sg.Lock} {p : Prog (Sg.sum Sg') R'}
    (h : sh.Phase w a pl H p) (hprocs : ∀ m, pl = some m → w'.procs[m]? = w.procs[m]?)
    (hheld : ∀ m, pl = some m → ∀ l q,
      (w'.shared.held l = some ⟨m, q⟩ ↔ w.shared.held l = some ⟨m, q⟩))
    (hanswered : ∀ x, Answered inner w x → Answered inner w' x) : sh.Phase w' a pl H p := by
  cases h with
  | outside h hpast => exact .outside h (fun x hx => hanswered x (hpast x hx))
  | @inside past ok m q t k hq hm ht hok h hpast =>
      have hset : {l | w.shared.held l = some ⟨m, q⟩} = {l | w'.shared.held l = some ⟨m, q⟩} := by
        ext l
        exact (hheld m rfl l q).symm
      rw [hset]
      exact .inside hq ((hprocs m rfl).trans hm) ht hok h (fun x hx => hanswered x (hpast x hx))

theorem Shows.replace (hs : sh.Shows c w place) {n : Nat} {a : Q'}
    {old rest : Option (Prog (Sg.sum Sg') R')} {s' : Shared (Sg.sum Sg') S' Q'}
    {pl : Option Nat} (hn : c.procs[n]? = some ⟨a, old⟩) (hdata : w'.shared.data = sh.data s'.data)
    (hhistory : sh.Alike w'.shared.history s'.history)
    (hphase : ∀ p, rest = some p → sh.Phase w' a pl (heldBy s' ⟨n, a⟩) p)
    (houter : ∀ l i, i ≠ ⟨n, a⟩ → (s'.held l = some i ↔ c.shared.held l = some i))
    (hinner : ∀ n' m, n' ≠ n → place n' = some m → w'.procs[m]? = w.procs[m]? ∧
      ∀ l q, (w'.shared.held l = some ⟨m, q⟩ ↔ w.shared.held l = some ⟨m, q⟩))
    (hanswered : ∀ x, Answered inner w x → Answered inner w' x)
    (hpl : ∀ m, pl = some m → m < w'.procs.length ∧ ∀ n', n' ≠ n → place n' ≠ some m)
    (hlen : w.procs.length ≤ w'.procs.length)
    (hheld : ∀ l j, w'.shared.held l = some j →
      pl = some j.index ∧ s'.held (.inl l) = some ⟨n, a⟩ ∨
        w.shared.held l = some j ∧ place n ≠ some j.index) :
    sh.Shows ⟨s', c.procs.set n ⟨a, rest⟩⟩ w' (Function.update place n pl) where
  data := hdata
  history := hhistory
  tasks n' a' p hp := by
    rw [List.getElem?_set] at hp
    split at hp
    next hnn =>
      subst hnn
      split at hp
      · cases hp
        rw [Function.update_self]
        exact hphase p rfl
      · cases hp
    next hnn =>
      have hset : heldBy s' ⟨n', a'⟩ = heldBy c.shared ⟨n', a'⟩ := by
        ext l
        exact houter (.inl l) ⟨n', a'⟩ (fun he => hnn (congrArg Name.index he).symm)
      rw [Function.update_of_ne (Ne.symm hnn), hset]
      exact (hs.tasks n' a' p hp).mono (fun m hm => (hinner n' m (Ne.symm hnn) hm).1)
        (fun m hm => (hinner n' m (Ne.symm hnn) hm).2) hanswered
  distinct n1 n2 m h1 h2 := by
    rw [Function.update_apply] at h1 h2
    split at h1 <;> split at h2
    next e1 e2 => rw [e1, e2]
    next e1 e2 => exact absurd h2 ((hpl m h1).2 n2 e2)
    next e1 e2 => exact absurd h1 ((hpl m h2).2 n1 e1)
    next => exact hs.distinct n1 n2 m h1 h2
  bound n' m h := by
    rw [List.length_set]
    rw [Function.update_apply] at h
    split at h
    next he =>
      subst he
      exact ⟨(List.getElem?_eq_some_iff.mp hn).1, (hpl m h).1⟩
    next =>
      obtain ⟨h1, h2⟩ := hs.bound n' m h
      exact ⟨h1, h2.trans_le hlen⟩
  held l j hj := by
    rcases hheld l j hj with ⟨hplace, hl⟩ | ⟨hw, hne⟩
    · exact ⟨n, a, by rw [Function.update_self, hplace], hl⟩
    · obtain ⟨n', a', hplace, hl⟩ := hs.held l j hw
      have hnn : n' ≠ n := by
        rintro rfl
        exact hne hplace
      refine ⟨n', a', by rw [Function.update_of_ne hnn, hplace], ?_⟩
      exact (houter (.inl l) ⟨n', a'⟩ (fun he => hnn (congrArg Name.index he))).mpr hl

theorem Shows.between (hs : sh.Shows c w place) {n : Nat} {a : Q'}
    {old : Option (Prog (Sg.sum Sg') R')} {p : Prog (Sg.sum Sg') R'}
    {s' : Shared (Sg.sum Sg') S' Q'} {past : List (Q × R)} {H : Set Sg.Lock}
    (hn : c.procs[n]? = some ⟨a, old⟩) (hplace : place n = none)
    (hdata : sh.data s'.data = sh.data c.shared.data)
    (hhistory : s'.history.filter sh.shows = c.shared.history.filter sh.shows)
    (h : Outside inner sh.acts (sh.calls a) (sh.post a) past H p)
    (hpast : ∀ x ∈ past, Answered inner w x) (hH : heldBy s' ⟨n, a⟩ = H)
    (houter : ∀ l i, i ≠ ⟨n, a⟩ → (s'.held l = some i ↔ c.shared.held l = some i)) :
    sh.Shows ⟨s', c.procs.set n ⟨a, some p⟩⟩ w (Function.update place n none) := by
  apply hs.replace hn
  · rw [hdata, hs.data]
  · rw [Alike, hhistory]
    exact hs.history
  · intro p' hp
    cases hp
    rw [hH]
    exact .outside h hpast
  · exact houter
  · exact fun _ _ _ _ => ⟨rfl, fun _ _ => Iff.rfl⟩
  · exact fun _ hx => hx
  · exact fun m hm => absurd hm (by simp)
  · exact le_rfl
  · intro l j hj
    exact .inr ⟨hj, by rw [hplace]; simp⟩

variable [DecidableEq Sg.Lock] [DecidableEq Q] [DecidableEq Sg'.Lock] [DecidableEq Q']
  [Preorder ι] {rank : Sg.Lock → ι}

theorem Shows.advance_inl (hs : sh.Shows c w place) {n m : Nat} {a : Q'} {q : Q} {t : Prog Sg R}
    {k : R → Prog (Sg.sum Sg') R'} {s' : Shared (Sg.sum Sg') S' Q'} {p' : Prog (Sg.sum Sg') R'}
    (hq : sh.calls a q) (ht : ∀ r, t ≠ .ret r)
    (hset : heldBy c.shared ⟨n, a⟩ = {l | w.shared.held l = some ⟨m, q⟩})
    (h : outer.advance ⟨n, a⟩ (t.inl.bind k) c.shared = some (s', p')) :
    ∃ s1 t', inner.advance ⟨m, q⟩ t w.shared = some (s1, t') ∧ p' = t'.inl.bind k ∧
      s1.data = sh.data s'.data ∧ sh.Alike s1.history s'.history ∧
      heldBy s' ⟨n, a⟩ = {l | s1.held l = some ⟨m, q⟩} := by
  have hmem (l : Sg.Lock) : c.shared.held (.inl l) = some ⟨n, a⟩ ↔ w.shared.held l = some ⟨m, q⟩ :=
    Set.ext_iff.mp hset l
  cases t with
  | ret r => exact absurd rfl (ht r)
  | op o k' =>
      cases h
      have hresp : (outer.exec (.inl o) c.shared.data).1 = (inner.exec o w.shared.data).1 := by
        rw [hs.data]
        exact sh.exec_resp o c.shared.data
      refine ⟨w.shared.perform inner.exec ⟨m, q⟩ o, k' (inner.exec o w.shared.data).1, rfl, ?_, ?_, ?_,
        hset⟩
      · change ((k' (outer.exec (.inl o) c.shared.data).1).inl).bind k = _
        rw [hresp]
      · rw [Shared.perform_data, Shared.perform_data, sh.exec_data, hs.data]
      · have hfirst : (⟨⟨m, q⟩, o, (inner.exec o w.shared.data).1, w.shared.data⟩ : Event Sg S Q) =
            ⟨⟨m, q⟩, o, (outer.exec (.inl o) c.shared.data).1, sh.data c.shared.data⟩ := by
          rw [hs.data, sh.exec_resp]
        rw [Shared.perform_history, Shared.perform_history, hfirst, Alike]
        cases ho : sh.acts o with
        | false =>
            rw [List.filter_cons_of_neg (by simp [ho]), List.filter_cons_of_neg (by simp [shows, ho])]
            exact hs.history
        | true =>
            rw [List.filter_cons_of_pos (by simp [ho]), List.filter_cons_of_pos (by simp [shows, ho])]
            exact .cons (.intro o _ _ hq) hs.history
  | lock l k' =>
      simp only [Prog.inl, Prog.bind, System.advance] at h
      split at h
      next hf =>
        cases h
        have hfw : w.shared.held l = none := by
          cases hw : w.shared.held l with
          | none => rfl
          | some j =>
              obtain ⟨n', a', -, hl⟩ := hs.held l j hw
              cases hf.symm.trans hl
        refine ⟨w.shared.acquire ⟨m, q⟩ l, k', if_pos hfw, rfl, hs.data, hs.history, ?_⟩
        ext l'
        by_cases hl : l' = l
        · subst hl
          simp [heldBy]
        · have hne : (Sum.inl l' : Sg.Lock ⊕ Sg'.Lock) ≠ Sum.inl l := fun he => hl (Sum.inl.inj he)
          change (c.shared.acquire ⟨n, a⟩ (Sum.inl l)).held (Sum.inl l') = some ⟨n, a⟩ ↔
            (w.shared.acquire ⟨m, q⟩ l).held l' = some ⟨m, q⟩
          rw [c.shared.acquire_held_ne _ hne, w.shared.acquire_held_ne _ hl]
          exact hmem l'
      next => cases h
  | unlock l k' =>
      simp only [Prog.inl, Prog.bind, System.advance] at h
      split at h
      next hf =>
        cases h
        have hfw : w.shared.held l = some ⟨m, q⟩ := (hmem l).mp hf
        refine ⟨w.shared.release l, k', if_pos hfw, rfl, hs.data, hs.history, ?_⟩
        ext l'
        by_cases hl : l' = l
        · subst hl
          simp [heldBy]
        · have hne : (Sum.inl l' : Sg.Lock ⊕ Sg'.Lock) ≠ Sum.inl l := fun he => hl (Sum.inl.inj he)
          change (c.shared.release (Sum.inl l)).held (Sum.inl l') = some ⟨n, a⟩ ↔
            (w.shared.release l).held l' = some ⟨m, q⟩
          rw [c.shared.release_held_ne hne, w.shared.release_held_ne hl]
          exact hmem l'
      next => cases h

theorem Shows.inside (hord : ∀ q, (inner.handler q).Ordered rank ∅ ∅)
    (hw : System.Orderly rank w) (hs : sh.Shows c w place) {n m : Nat} {a : Q'} {q : Q}
    {t : Prog Sg R} {k : R → Prog (Sg.sum Sg') R'} {s' : Shared (Sg.sum Sg') S' Q'}
    {p' : Prog (Sg.sum Sg') R'} {past : List (Q × R)} {ok : R → Prop}
    (hn : c.procs[n]? = some ⟨a, some (t.inl.bind k)⟩) (hplace : place n = some m)
    (hq : sh.calls a q) (hm : w.procs[m]? = some ⟨q, some t⟩) (ht : ∀ r, t ≠ .ret r)
    (hok : t.Yields ok)
    (hset : heldBy c.shared ⟨n, a⟩ = {l | w.shared.held l = some ⟨m, q⟩})
    (hk : ∀ r, ok r → Outside inner sh.acts (sh.calls a) (sh.post a) ((q, r) :: past) ∅ (k r))
    (hpast : ∀ x ∈ past, Answered inner w x)
    (h : outer.advance ⟨n, a⟩ (t.inl.bind k) c.shared = some (s', p')) :
    ∃ w' place', inner.next w (.step m) = some w' ∧
      sh.Shows ⟨s', c.procs.set n ⟨a, some p'⟩⟩ w' place' := by
  obtain ⟨s1, t', hadv, rfl, hdata, hhistory, hset'⟩ := hs.advance_inl hq ht hset h
  have hnext : inner.next w (.step m) = some ⟨s1, w.procs.set m ⟨q, some t'⟩⟩ :=
    System.next_step hm hadv
  have hlt : m < w.procs.length := (List.getElem?_eq_some_iff.mp hm).1
  have hself : (w.procs.set m ⟨q, some t'⟩)[m]? = some ⟨q, some t'⟩ := List.getElem?_set_self hlt
  have hpast' : ∀ x ∈ past, Answered inner ⟨s1, w.procs.set m ⟨q, some t'⟩⟩ x :=
    fun x hx => (hpast x hx).set hm ht _ _
  -- with its last step the inner task has dropped all its locks
  have hphase : ∃ pl, (∀ j, pl = some j → j = m) ∧
      sh.Phase ⟨s1, w.procs.set m ⟨q, some t'⟩⟩ a pl (heldBy s' ⟨n, a⟩) (t'.inl.bind k) ∧
      (pl = none → heldBy s' ⟨n, a⟩ = ∅) := by
    by_cases hret : ∃ r, t' = .ret r
    · obtain ⟨r, rfl⟩ := hret
      have hempty : {l | s1.held l = some ⟨m, q⟩} = ∅ :=
        (hw.next hord hnext).ordered m q _ hself
      refine ⟨none, by simp, ?_, fun _ => hset'.trans hempty⟩
      rw [hset', hempty]
      apply Phase.outside (hk r (yields_advance hok hadv))
      intro x hx
      rcases List.mem_cons.mp hx with rfl | hx
      · exact .inl ⟨m, by simp only [World.returned, hself]⟩
      · exact hpast' x hx
    · refine ⟨some m, fun j hj => (Option.some.inj hj).symm, ?_, by simp⟩
      rw [hset']
      exact .inside hq hself (fun r hr => hret ⟨r, hr⟩) (yields_advance hok hadv) hk hpast'
  obtain ⟨pl, hpl, hphase, hfree⟩ := hphase
  refine ⟨_, Function.update place n pl, hnext, ?_⟩
  apply hs.replace hn hdata hhistory
  · intro p hp
    cases hp
    exact hphase
  · exact fun l i hi => advance_others h hi
  · intro n' m' hne hp'
    have hmm : m' ≠ m := by
      rintro rfl
      exact hne (hs.distinct _ _ _ hp' hplace)
    refine ⟨List.getElem?_set_ne (Ne.symm hmm), fun l q' => advance_others hadv ?_⟩
    exact fun he => hmm (congrArg Name.index he)
  · exact fun x hx => hx.set hm ht _ _
  · intro m' hm'
    obtain rfl := hpl m' hm'
    refine ⟨by rwa [List.length_set], fun n' hne hp' => ?_⟩
    exact hne (hs.distinct _ _ _ hp' hplace)
  · rw [List.length_set]
  · intro l j hj
    by_cases hjm : j = ⟨m, q⟩
    · subst hjm
      have hmem : l ∈ heldBy s' ⟨n, a⟩ := by
        rw [hset']
        exact hj
      refine .inl ⟨?_, hmem⟩
      cases hpn : pl with
      | none =>
          rw [hfree hpn] at hmem
          exact hmem.elim
      | some j => rw [hpl j hpn]
    · have hold := (advance_others hadv hjm).mp hj
      refine .inr ⟨hold, fun he => hjm ?_⟩
      have hidx : m = j.index := Option.some.inj (hplace.symm.trans he)
      obtain ⟨u, hu⟩ := hw.owned l j hold
      rw [← hidx, hm] at hu
      cases hu
      cases j
      subst hidx
      rfl

omit [DecidableEq Sg.Lock] [DecidableEq Q] [DecidableEq Sg'.Lock] [DecidableEq Q'] in
theorem Shows.enter (hw : System.Orderly rank w) (hs : sh.Shows c w place) {n : Nat} {a : Q'}
    {q : Q} {k : R → Prog (Sg.sum Sg') R'} {past : List (Q × R)} {ok : R → Prop}
    (hn : c.procs[n]? = some ⟨a, some ((inner.handler q).inl.bind k)⟩) (hplace : place n = none)
    (hq : sh.calls a q) (ht : ∀ r, inner.handler q ≠ .ret r)
    (hok : (inner.handler q).Yields ok) (hH : heldBy c.shared ⟨n, a⟩ = ∅)
    (hk : ∀ r, ok r → Outside inner sh.acts (sh.calls a) (sh.post a) ((q, r) :: past) ∅ (k r))
    (hpast : ∀ x ∈ past, Answered inner w x) :
    heldBy c.shared ⟨n, a⟩ = {l | w.shared.held l = some ⟨w.procs.length, q⟩} ∧
      sh.Shows c { w with procs := w.procs ++ [⟨q, some (inner.handler q)⟩] }
        (Function.update place n (some w.procs.length)) := by
  have hfresh (l : Sg.Lock) (q' : Q) : w.shared.held l ≠ some ⟨w.procs.length, q'⟩ := by
    intro hl
    obtain ⟨u, hu⟩ := hw.owned l _ hl
    exact (List.getElem?_eq_some_iff.mp hu).1.ne rfl
  have hset : heldBy c.shared ⟨n, a⟩ = {l | w.shared.held l = some ⟨w.procs.length, q⟩} := by
    rw [hH]
    exact (Set.eq_empty_of_forall_notMem (fun l hl => hfresh l q hl)).symm
  have hsame : c.procs.set n ⟨a, some ((inner.handler q).inl.bind k)⟩ = c.procs := by
    obtain ⟨hlt, heq⟩ := List.getElem?_eq_some_iff.mp hn
    rw [← heq]
    exact List.set_getElem_self hlt
  have hnew : (w.procs ++ [⟨q, some (inner.handler q)⟩])[w.procs.length]? =
      some ⟨q, some (inner.handler q)⟩ := by
    simp
  refine ⟨hset, ?_⟩
  have hreplaced : sh.Shows ⟨c.shared, c.procs.set n ⟨a, some ((inner.handler q).inl.bind k)⟩⟩
      { w with procs := w.procs ++ [⟨q, some (inner.handler q)⟩] }
      (Function.update place n (some w.procs.length)) := by
    apply hs.replace hn
    · exact hs.data
    · exact hs.history
    · intro p hp
      cases hp
      rw [hset]
      exact .inside hq hnew ht hok hk (fun x hx => (hpast x hx).append _)
    · exact fun _ _ _ => Iff.rfl
    · intro n' m _ hp'
      exact ⟨List.getElem?_append_left (hs.bound n' m hp').2, fun _ _ => Iff.rfl⟩
    · exact fun x hx => hx.append _
    · intro m hm
      obtain rfl := Option.some.inj hm
      refine ⟨by simp, fun n' _ hp' => ?_⟩
      exact (hs.bound n' _ hp').2.ne rfl
    · simp
    · intro l j hj
      exact .inr ⟨hj, by rw [hplace]; simp⟩
  rw [hsame] at hreplaced
  exact hreplaced

theorem Shows.outside (hord : ∀ q, (inner.handler q).Ordered rank ∅ ∅)
    (hw : System.Orderly rank w) (hs : sh.Shows c w place) {n : Nat} {a : Q'}
    {p p' : Prog (Sg.sum Sg') R'} {past : List (Q × R)} {H : Set Sg.Lock}
    {s' : Shared (Sg.sum Sg') S' Q'}
    (h : Outside inner sh.acts (sh.calls a) (sh.post a) past H p)
    (hn : c.procs[n]? = some ⟨a, some p⟩) (hplace : place n = none)
    (hH : heldBy c.shared ⟨n, a⟩ = H) (hpast : ∀ x ∈ past, Answered inner w x)
    (hadv : outer.advance ⟨n, a⟩ p c.shared = some (s', p')) :
    ∃ w' place', inner.Runs (fun _ act => ∀ q, act = .spawn q → sh.calls a q) w w' ∧
      sh.Shows ⟨s', c.procs.set n ⟨a, some p'⟩⟩ w' place' := by
  have hothers := fun (l : (Sg.sum Sg').Lock) (i : Name Q') (hi : i ≠ ⟨n, a⟩) =>
    advance_others hadv (l := l) hi
  induction h with
  | ret hr => cases hadv
  | edge o k hk _ =>
      cases hadv
      exact ⟨w, _, .refl, hs.between hn hplace (sh.exec_edge o c.shared.data) rfl (hk _) hpast hH
        hothers⟩
  | read o k ho hk _ =>
      cases hadv
      refine ⟨w, _, .refl, hs.between hn hplace ?_ ?_ (hk _) hpast hH hothers⟩
      · rw [Shared.perform_data, sh.exec_data, sh.exec_read o _ ho]
      · exact List.filter_cons_of_neg (by simp [shows, ho])
  | lockEdge l k hk _ =>
      simp only [System.advance] at hadv
      split at hadv
      next hf =>
        cases hadv
        refine ⟨w, _, .refl, hs.between hn hplace rfl rfl hk hpast ?_ hothers⟩
        rw [← hH]
        ext l'
        change (c.shared.acquire ⟨n, a⟩ (Sum.inr l)).held (Sum.inl l') = _ ↔ _
        rw [c.shared.acquire_held_ne _ (by simp)]
        rfl
      next => cases hadv
  | unlockEdge l k hk _ =>
      simp only [System.advance] at hadv
      split at hadv
      next hf =>
        cases hadv
        refine ⟨w, _, .refl, hs.between hn hplace rfl rfl hk hpast ?_ hothers⟩
        rw [← hH]
        ext l'
        change (c.shared.release (Sum.inr l)).held (Sum.inl l') = _ ↔ _
        rw [c.shared.release_held_ne (by simp)]
        rfl
      next => cases hadv
  | lock l k hk _ =>
      simp only [System.advance] at hadv
      split at hadv
      next hf =>
        cases hadv
        refine ⟨w, _, .refl, hs.between hn hplace rfl rfl hk hpast ?_ hothers⟩
        rw [← hH]
        ext l'
        by_cases hl : l' = l
        · subst hl
          simp [heldBy]
        · have hne : (Sum.inl l' : Sg.Lock ⊕ Sg'.Lock) ≠ Sum.inl l := fun he => hl (Sum.inl.inj he)
          rw [Set.mem_insert_iff, or_iff_right hl]
          change (c.shared.acquire ⟨n, a⟩ (Sum.inl l)).held (Sum.inl l') = _ ↔ _
          rw [c.shared.acquire_held_ne _ hne]
          rfl
      next => cases hadv
  | unlock l k hk _ =>
      simp only [System.advance] at hadv
      split at hadv
      next hf =>
        cases hadv
        refine ⟨w, _, .refl, hs.between hn hplace rfl rfl hk hpast ?_ hothers⟩
        rw [← hH]
        ext l'
        by_cases hl : l' = l
        · subst hl
          simp [heldBy]
        · have hne : (Sum.inl l' : Sg.Lock ⊕ Sg'.Lock) ≠ Sum.inl l := fun he => hl (Sum.inl.inj he)
          rw [Set.mem_sdiff, Set.mem_singleton_iff, and_iff_left hl]
          change (c.shared.release (Sum.inl l)).held (Sum.inl l') = _ ↔ _
          rw [c.shared.release_held_ne hne]
          rfl
      next => cases hadv
  | @call past ok q k hq hok hk ih =>
      by_cases hret : ∃ r, inner.handler q = .ret r
      · obtain ⟨r, hr⟩ := hret
        rw [hr] at hn hadv hok
        apply ih r hok hn hH _ hadv
        intro x hx
        rcases List.mem_cons.mp hx with rfl | hx
        · exact .inr hr
        · exact hpast x hx
      · have ht : ∀ r, inner.handler q ≠ .ret r := fun r hr => hret ⟨r, hr⟩
        obtain ⟨hset, hs1⟩ := hs.enter hw hn hplace hq ht hok hH hk hpast
        have hspawn : inner.next w (.spawn q) =
            some { w with procs := w.procs ++ [⟨q, some (inner.handler q)⟩] } := rfl
        obtain ⟨w', place', hnext, hs'⟩ := hs1.inside hord (hw.next hord hspawn) hn
          (Function.update_self _ _ _) hq (by simp) ht hok hset hk (fun x hx => (hpast x hx).append _) hadv
        refine ⟨w', place', .head ⟨.spawn q, ?_, hspawn⟩ (.single ⟨.step w.procs.length, ?_, hnext⟩),
          hs'⟩
        · rintro q' ⟨⟩
          exact hq
        · exact fun q' h => by cases h

omit [DecidableEq Sg.Lock] [DecidableEq Q] [DecidableEq Sg'.Lock] [DecidableEq Q'] in
theorem Shows.spawn {rank' : (Sg.sum Sg').Lock → ι} (hc : System.Orderly rank' c)
    (hs : sh.Shows c w place) (a : Q') :
    sh.Shows { c with procs := c.procs ++ [⟨a, some (outer.handler a)⟩] } w place where
  data := hs.data
  history := hs.history
  tasks n a' p hp := by
    rw [List.getElem?_append] at hp
    split at hp
    next => exact hs.tasks n a' p hp
    next hlt =>
      have hnone : place n = none := by
        cases hpl : place n with
        | none => rfl
        | some m => exact absurd (hs.bound n m hpl).1 hlt
      have hempty : heldBy c.shared ⟨n, a'⟩ = ∅ := by
        apply Set.eq_empty_of_forall_notMem
        intro l hl
        obtain ⟨u, hu⟩ := hc.owned _ _ hl
        exact hlt (List.getElem?_eq_some_iff.mp hu).1
      rw [hnone, hempty]
      obtain ⟨x, hx⟩ : ∃ x, n - c.procs.length = x := ⟨_, rfl⟩
      rw [hx] at hp
      cases x with
      | zero =>
          cases hp
          exact .outside (sh.outside a) (by simp)
      | succ x => cases hp
  distinct := hs.distinct
  bound n m h := by
    obtain ⟨hn, hm⟩ := hs.bound n m h
    rw [List.length_append]
    exact ⟨Nat.lt_add_right 1 hn, hm⟩
  held := hs.held

theorem Shows.step (hord : ∀ q, (inner.handler q).Ordered rank ∅ ∅) (hw : System.Orderly rank w)
    (hs : sh.Shows c w place) {n : Nat} {a : Q'} {p p' : Prog (Sg.sum Sg') R'}
    {s' : Shared (Sg.sum Sg') S' Q'} (hn : c.procs[n]? = some ⟨a, some p⟩)
    (hadv : outer.advance ⟨n, a⟩ p c.shared = some (s', p')) :
    ∃ w' place', inner.Runs (fun _ act => ∀ q, act = .spawn q → sh.calls a q) w w' ∧
      sh.Shows ⟨s', c.procs.set n ⟨a, some p'⟩⟩ w' place' := by
  have hphase := hs.tasks n a p hn
  obtain ⟨pl, hpl⟩ : ∃ pl, place n = pl := ⟨_, rfl⟩
  obtain ⟨H, hH⟩ : ∃ H, heldBy c.shared ⟨n, a⟩ = H := ⟨_, rfl⟩
  rw [hpl, hH] at hphase
  cases hphase with
  | outside h hpast => exact hs.outside hord hw h hn hpl hH hpast hadv
  | inside hq hm ht hok hk hpast =>
      obtain ⟨w', place', hnext, hs'⟩ := hs.inside hord hw hn hpl hq hm ht hok hH hk hpast hadv
      exact ⟨w', place', .single ⟨.step _, (fun q h => by cases h), hnext⟩, hs'⟩

omit [DecidableEq Sg'.Lock] in
theorem Shows.drop (hw : System.Orderly rank w) (hs : sh.Shows c w place) {n : Nat} {a : Q'}
    {l : (Sg.sum Sg').Lock} {k : Prog (Sg.sum Sg') R'}
    (hn : c.procs[n]? = some ⟨a, some (.lock l k)⟩) :
    ∃ w' place', inner.Runs (fun _ act => ∀ q, act = .spawn q → sh.calls a q) w w' ∧
      sh.Shows ⟨c.shared.abandon ⟨n, a⟩, c.procs.set n ⟨a, none⟩⟩ w' place' := by
  have hothers (l : (Sg.sum Sg').Lock) (i : Name Q') (hi : i ≠ ⟨n, a⟩) :
      (c.shared.abandon ⟨n, a⟩).held l = some i ↔ c.shared.held l = some i := by
    rw [abandon_held_iff, and_iff_left hi]
  have hphase := hs.tasks n a _ hn
  obtain ⟨pl, hpl⟩ : ∃ pl, place n = pl := ⟨_, rfl⟩
  obtain ⟨H, hH⟩ : ∃ H, heldBy c.shared ⟨n, a⟩ = H := ⟨_, rfl⟩
  obtain ⟨p, hp⟩ : ∃ p : Prog (Sg.sum Sg') R', .lock l k = p := ⟨_, rfl⟩
  rw [hpl, hH, hp] at hphase
  cases hphase with
  | outside h hpast =>
      refine ⟨w, Function.update place n none, .refl, ?_⟩
      apply hs.replace hn
      · exact hs.data
      · exact hs.history
      · exact fun p' hp' => by cases hp'
      · exact hothers
      · exact fun _ _ _ _ => ⟨rfl, fun _ _ => Iff.rfl⟩
      · exact fun _ hx => hx
      · exact fun m hm => by cases hm
      · exact le_rfl
      · intro l j hj
        exact .inr ⟨hj, by rw [hpl]; simp⟩
  | @inside past ok m q t kt hq hm ht hok hk hpast =>
      cases t with
      | ret r => exact absurd rfl (ht r)
      | op o kt' | unlock l' kt' => cases hp
      | lock l' kt' =>
          have hnext : inner.next w (.drop m) =
              some ⟨w.shared.abandon ⟨m, q⟩, w.procs.set m ⟨q, none⟩⟩ := by
            simp only [System.next, hm]
          refine ⟨_, Function.update place n none, .single ⟨.drop m, (fun q h => by cases h), hnext⟩, ?_⟩
          apply hs.replace hn
          · exact hs.data
          · exact hs.history
          · exact fun p' hp' => by cases hp'
          · exact hothers
          · intro n' m' hne hp'
            have hmm : m' ≠ m := by
              rintro rfl
              exact hne (hs.distinct _ _ _ hp' hpl)
            refine ⟨List.getElem?_set_ne (Ne.symm hmm), fun l q' => ?_⟩
            rw [abandon_held_iff, and_iff_left]
            exact fun he => hmm (congrArg Name.index he)
          · exact fun x hx => hx.set hm ht _ _
          · exact fun m hm => by cases hm
          · rw [List.length_set]
          · intro l j hj
            obtain ⟨hold, hjm⟩ := abandon_held_iff.mp hj
            refine .inr ⟨hold, fun he => hjm ?_⟩
            have hidx : m = j.index := Option.some.inj (hpl.symm.trans he)
            obtain ⟨u, hu⟩ := hw.owned l j hold
            rw [← hidx, hm] at hu
            cases hu
            cases j
            subst hidx
            rfl

/-- Requests that have arrived call for every inner request that is let in. -/
def Called (sh : Shell inner outer) (c : World (Sg.sum Sg') S' Q' R') (_ : World Sg S Q R)
    (act : Action Q) : Prop :=
  ∀ q, act = .spawn q → ∃ p ∈ c.procs, sh.calls p.request q

theorem Shows.next {rank' : (Sg.sum Sg').Lock → ι} (hord : ∀ q, (inner.handler q).Ordered rank ∅ ∅)
    (hw : System.Orderly rank w) (hc : System.Orderly rank' c) (hs : sh.Shows c w place)
    {c' : World (Sg.sum Sg') S' Q' R'} {act : Action Q'} (hn : outer.next c act = some c') :
    ∃ w' place', inner.Runs (Called sh c') w w' ∧ sh.Shows c' w' place' := by
  cases act with
  | spawn a =>
      cases hn
      exact ⟨w, place, .refl, hs.spawn hc a⟩
  | step n =>
      simp only [System.next] at hn
      split at hn
      next a p hp =>
        obtain ⟨⟨s', p'⟩, hadv, rfl⟩ := Option.map_eq_some_iff.mp hn
        obtain ⟨w', place', hruns, hs'⟩ := hs.step hord hw hp hadv
        refine ⟨w', place', hruns.mono ?_, hs'⟩
        intro _ act hcall q hq
        exact ⟨_, List.mem_of_getElem? (System.procs_set hp _), hcall q hq⟩
      next => cases hn
  | drop n =>
      simp only [System.next] at hn
      split at hn
      next a l k hp =>
        cases hn
        obtain ⟨w', place', hruns, hs'⟩ := hs.drop hw hp
        refine ⟨w', place', hruns.mono ?_, hs'⟩
        intro _ act hcall q hq
        exact ⟨_, List.mem_of_getElem? (System.procs_set hp _), hcall q hq⟩
      next => cases hn

omit [DecidableEq Q] in
theorem Called.next {c' : World (Sg.sum Sg') S' Q' R'} {act : Action Q'}
    (hn : outer.next c act = some c') {v : World Sg S Q R} {b : Action Q} (h : Called sh c v b) :
    Called sh c' v b := by
  intro q hq
  obtain ⟨p, hp, hcall⟩ := h q hq
  suffices hreq : p.request ∈ c'.procs.map Proc.request by
    obtain ⟨p', hp', heq⟩ := List.mem_map.mp hreq
    exact ⟨p', hp', heq ▸ hcall⟩
  have hold : p.request ∈ c.procs.map Proc.request := List.mem_map_of_mem hp
  have hset {n : Nat} {a : Q'} {x y : Option (Prog (Sg.sum Sg') R')}
      (hx : c.procs[n]? = some ⟨a, x⟩) :
      (c.procs.set n ⟨a, y⟩).map Proc.request = c.procs.map Proc.request := by
    obtain ⟨hlt, heq⟩ := List.getElem?_eq_some_iff.mp hx
    have hlt' : n < (c.procs.map Proc.request).length := by simpa using hlt
    have hreq : (c.procs.map Proc.request)[n] = a := by simp [heq]
    rw [List.map_set, ← hreq]
    exact List.set_getElem_self _
  cases act with
  | spawn a =>
      cases hn
      rw [List.map_append]
      exact List.mem_append_left _ hold
  | step n =>
      simp only [System.next] at hn
      split at hn
      next a t hp =>
        obtain ⟨⟨s', t'⟩, -, rfl⟩ := Option.map_eq_some_iff.mp hn
        rw [hset hp]
        exact hold
      next => cases hn
  | drop n =>
      simp only [System.next] at hn
      split at hn
      next a l k hp =>
        cases hn
        rw [hset hp]
        exact hold
      next => cases hn

/-- Every run of the outer system shows to the handlers as a run of the inner one. -/
theorem shows_run (hord : ∀ q, (inner.handler q).Ordered rank ∅ ∅)
    {rank' : (Sg.sum Sg').Lock → ι} (hord' : ∀ a, (outer.handler a).Ordered rank' ∅ ∅)
    {A : World (Sg.sum Sg') S' Q' R' → Action Q' → Prop} {d : S'}
    (h : outer.Runs A (.start d) c) : ∃ w place,
      inner.Runs (Called sh c) (.start (sh.data d)) w ∧ sh.Shows c w place := by
  induction h with
  | refl =>
      refine ⟨.start (sh.data d), fun _ => none, .refl, rfl, .nil, ?_, ?_, ?_, ?_⟩
      · exact fun n a p hp => by cases hp
      · exact fun n n' m hp => by cases hp
      · exact fun n m hp => by cases hp
      · exact fun l j hl => by cases hl
  | tail hpre hs ih =>
      obtain ⟨a, -, hn⟩ := hs
      obtain ⟨w, place, hruns, hshows⟩ := ih
      have hc := System.Runs.orderly hord' hpre (System.orderly_start d)
      have hw := hruns.orderly hord (System.orderly_start (sh.data d))
      obtain ⟨w', place', hruns', hshows'⟩ := hshows.next hord hw hc hn
      exact ⟨w', place', .trans (hruns.mono (fun _ _ hb => Called.next hn hb)) hruns', hshows'⟩

omit [DecidableEq Sg.Lock] [DecidableEq Q] [DecidableEq Sg'.Lock] [DecidableEq Q'] [Preorder ι] in
/-- What a request was answered goes back to answers of the handlers it called. -/
theorem Shows.answers (hs : sh.Shows c w place) {n : Nat} {a : Q'} {r : R'}
    (h : c.returned n = some (a, r)) :
    ∃ past, sh.post a past r ∧ ∀ x ∈ past, Answered inner w x := by
  have hout {past : List (Q × R)} {H : Set Sg.Lock} {p : Prog (Sg.sum Sg') R'}
      (ho : Outside inner sh.acts (sh.calls a) (sh.post a) past H p) (hp : p = .ret r)
      (hpast : ∀ x ∈ past, Answered inner w x) :
      ∃ past', sh.post a past' r ∧ ∀ x ∈ past', Answered inner w x := by
    induction ho with
    | ret hr =>
        cases hp
        exact ⟨_, hr, hpast⟩
    | edge o k hk _ | read o k ho hk _ | lockEdge l k hk _ | unlockEdge l k hk _ | lock l k hk _
    | unlock l k hk _ => cases hp
    | call q k hq hok hk ih =>
        obtain ⟨t, ht⟩ : ∃ t, inner.handler q = t := ⟨_, rfl⟩
        rw [ht] at hp hok
        cases t with
        | ret x =>
            apply ih x hok hp
            intro y hy
            rcases List.mem_cons.mp hy with rfl | hy
            · exact .inr ht
            · exact hpast y hy
        | op o k' | lock l k' | unlock l k' => cases hp
  rw [World.returned] at h
  split at h
  next q' r' hp =>
    cases h
    have hphase := hs.tasks n _ _ hp
    obtain ⟨pl, hpl⟩ : ∃ pl, place n = pl := ⟨_, rfl⟩
    obtain ⟨H, hH⟩ : ∃ H, heldBy c.shared ⟨n, a⟩ = H := ⟨_, rfl⟩
    obtain ⟨p, hp'⟩ : ∃ p : Prog (Sg.sum Sg') R', .ret r = p := ⟨_, rfl⟩
    rw [hpl, hH, hp'] at hphase
    cases hphase with
    | outside ho hpast => exact hout ho hp'.symm hpast
    | @inside past ok m q t kt hq hm ht hok hk hpast =>
        cases t with
        | ret x => exact absurd rfl (ht x)
        | op o k' | lock l k' | unlock l k' => cases hp'
  next => cases h

end Shell

end AiterCommerce.Concurrent
