import Mathlib.Data.List.Nodup

namespace AiterCommerce.Machine

variable {I U : Type} {mark : ℕ → U → Prop}

/-- Who drew which number from a counter, and who used what for it, newest first. -/
structure Tickets (I U : Type) where
  drawn : List (I × ℕ)
  used : List (I × U)

namespace Tickets

def draw (t : Tickets I U) (i : I) : Tickets I U :=
  { t with drawn := (i, t.drawn.length) :: t.drawn }

def use (t : Tickets I U) (i : I) (u : U) : Tickets I U := { t with used := (i, u) :: t.used }

/-- Numbers are drawn in order and each once; whoever uses one has drawn it and
uses nothing else. `mark n u` says that `u` shows the number `n`. -/
structure Orderly (mark : ℕ → U → Prop) (t : Tickets I U) : Prop where
  below : ∀ i n, (i, n) ∈ t.drawn → n < t.drawn.length
  distinct : (t.drawn.map Prod.snd).Nodup
  marked : ∀ i u, (i, u) ∈ t.used → ∃ n, (i, n) ∈ t.drawn ∧ mark n u
  once : ∀ i u v, (i, u) ∈ t.used → (i, v) ∈ t.used → u = v

namespace Orderly

variable {t : Tickets I U} {i j : I} {m n : ℕ} {u v : U}

theorem empty : Orderly mark (⟨[], []⟩ : Tickets I U) where
  below _ _ h := by cases h
  distinct := List.nodup_nil
  marked _ _ h := by cases h
  once _ _ _ h := by cases h

theorem draw (h : Orderly mark t) (i : I) : Orderly mark (t.draw i) where
  below j n hn := by
    change n < t.drawn.length + 1
    rcases List.mem_cons.mp hn with hn | hn
    · rw [(Prod.mk.inj hn).2]
      exact Nat.lt_succ_self _
    · exact Nat.lt_succ_of_lt (h.below j n hn)
  distinct := by
    refine List.nodup_cons.mpr ⟨fun hmem => ?_, h.distinct⟩
    obtain ⟨⟨j, n⟩, hn, rfl⟩ := List.mem_map.mp hmem
    exact absurd (h.below j _ hn) (Nat.lt_irrefl _)
  marked j u hu := by
    obtain ⟨n, hn, hm⟩ := h.marked j u hu
    exact ⟨n, List.mem_cons_of_mem _ hn, hm⟩
  once := h.once

theorem use (h : Orderly mark t) (hfirst : ∀ v, (i, v) ∉ t.used) (hn : (i, n) ∈ t.drawn)
    (hm : mark n u) : Orderly mark (t.use i u) where
  below := h.below
  distinct := h.distinct
  marked j v hv := by
    rcases List.mem_cons.mp hv with hv | hv
    · obtain ⟨rfl, rfl⟩ := Prod.mk.inj hv
      exact ⟨n, hn, hm⟩
    · exact h.marked j v hv
  once j v w hv hw := by
    rcases List.mem_cons.mp hv with hv' | hv' <;> rcases List.mem_cons.mp hw with hw' | hw'
    · exact (Prod.mk.inj hv').2.trans (Prod.mk.inj hw').2.symm
    · exact absurd ((Prod.mk.inj hv').1 ▸ hw') (hfirst w)
    · exact absurd ((Prod.mk.inj hw').1 ▸ hv') (hfirst v)
    · exact h.once j v w hv' hw'

theorem owner_unique (h : Orderly mark t) (hi : (i, n) ∈ t.drawn) (hj : (j, n) ∈ t.drawn) :
    i = j :=
  congrArg Prod.fst (List.inj_on_of_nodup_map h.distinct hi hj rfl)

section Marked

variable (hmark : ∀ m n u, mark m u → mark n u → m = n)

include hmark

theorem eq_of_mark (h : Orderly mark t) (hu : (i, u) ∈ t.used) (hv : (j, v) ∈ t.used)
    (hnu : mark n u) (hnv : mark n v) : u = v := by
  obtain ⟨m, hm, hmu⟩ := h.marked i u hu
  obtain ⟨m', hm', hmv⟩ := h.marked j v hv
  obtain rfl := hmark _ _ _ hmu hnu
  obtain rfl := hmark _ _ _ hmv hnv
  obtain rfl := h.owner_unique hm hm'
  exact h.once i u v hu hv

/-- Nobody has used a number before who drew it does. -/
theorem unused (h : Orderly mark t) (hfirst : ∀ v, (i, v) ∉ t.used) (hn : (i, n) ∈ t.drawn)
    (hm : mark n u) : (j, u) ∉ t.used := by
  intro hu
  obtain ⟨m, hdrawn, hmu⟩ := h.marked j u hu
  obtain rfl := hmark _ _ _ hmu hm
  obtain rfl := h.owner_unique hdrawn hn
  exact hfirst u hu

end Marked

end Orderly

end Tickets

end AiterCommerce.Machine
