import Mathlib.Data.List.Perm.Subperm
import Mathlib.Data.List.Range

namespace AiterCommerce.Throttle

/-- One hit: when it came, when its window was opened, and its place in it. -/
structure Slot where
  time : Nat
  start : Nat
  place : Nat
  deriving DecidableEq

namespace Slot

/-- A hit opens a window when there is none, or when the width has passed since
the last one was opened. -/
def next (width time : Nat) : Option Slot → Slot
  | none => ⟨time, time, 1⟩
  | some last =>
      if last.start + width ≤ time then ⟨time, time, 1⟩
      else ⟨time, last.start, last.place + 1⟩

def sequence (width : Nat) : Option Slot → List Nat → List Slot
  | _, [] => []
  | last, t :: ts => next width t last :: sequence width (some (next width t last)) ts

/-- The hit is a later one of the same window, or of a window opened after the
first one was over. -/
def Before (width : Nat) (a b : Slot) : Prop :=
  (a.start = b.start ∧ a.place < b.place) ∨ a.start + width ≤ b.start

variable {width : Nat}

theorem Before.trans {a b c : Slot} (h : Before width a b) (h' : Before width b c) :
    Before width a c := by
  rcases h with ⟨hs, hp⟩ | h <;> rcases h' with ⟨hs', hp'⟩ | h'
  · exact .inl ⟨hs.trans hs', hp.trans hp'⟩
  · exact .inr (hs ▸ h')
  · exact .inr (hs' ▸ h)
  · exact .inr (by omega)

theorem before_next (last : Slot) (t : Nat) : Before width last (next width t (some last)) := by
  rw [next]
  split
  next h => exact .inr h
  next h => exact .inl ⟨rfl, Nat.lt_succ_self _⟩

theorem before_sequence {last s : Slot} {ts : List Nat} (h : s ∈ sequence width (some last) ts) :
    Before width last s := by
  induction ts generalizing last with
  | nil => cases h
  | cons t ts ih =>
      rcases List.mem_cons.mp h with rfl | h
      · exact before_next last t
      · exact (before_next last t).trans (ih h)

theorem sequence_pairwise (last : Option Slot) (ts : List Nat) :
    (sequence width last ts).Pairwise (Before width) := by
  induction ts generalizing last with
  | nil => exact .nil
  | cons t ts ih => exact .cons (fun s hs => before_sequence hs) (ih _)

theorem place_pos {last : Option Slot} {ts : List Nat} {s : Slot}
    (h : s ∈ sequence width last ts) : 1 ≤ s.place := by
  induction ts generalizing last with
  | nil => cases h
  | cons t ts ih =>
      rcases List.mem_cons.mp h with rfl | h
      · cases last with
        | none => exact le_refl 1
        | some last => rw [next]; split <;> simp
      · exact ih h

theorem time_lt (hw : 0 < width) {last : Option Slot} {ts : List Nat} {s : Slot}
    (h : s ∈ sequence width last ts) : s.time < s.start + width := by
  induction ts generalizing last with
  | nil => cases h
  | cons t ts ih =>
      rcases List.mem_cons.mp h with rfl | h
      · cases last with
        | none => exact Nat.lt_add_of_pos_right hw
        | some last =>
            rw [next]
            split
            · exact Nat.lt_add_of_pos_right hw
            next hl => exact not_le.mp hl
      · exact ih h

theorem start_le {last : Option Slot} {ts : List Nat} {s : Slot}
    (hl : ∀ l ∈ last, ∀ t ∈ ts, l.start ≤ t) (hts : ts.Pairwise (· ≤ ·))
    (h : s ∈ sequence width last ts) : s.start ≤ s.time := by
  induction ts generalizing last with
  | nil => cases h
  | cons t ts ih =>
      have hnext : (next width t last).start ≤ t := by
        cases last with
        | none => exact le_refl t
        | some last =>
            rw [next]
            split
            · exact le_refl t
            · exact hl last rfl t (List.mem_cons_self ..)
      rcases List.mem_cons.mp h with rfl | h
      · refine hnext.trans (le_of_eq ?_)
        cases last with
        | none => rfl
        | some last => rw [next]; split <;> rfl
      · refine ih (fun l hl t' ht' => ?_) (List.Pairwise.of_cons hts) h
        cases hl
        exact hnext.trans (List.rel_of_pairwise_cons hts ht')

theorem mem_sequence_of_le {last : Option Slot} {ts : List Nat} {s : Slot}
    (h : s ∈ sequence width last ts) {place : Nat} (hp : 1 ≤ place) (hle : place ≤ s.place) :
    (∃ l, last = some l ∧ l.start = s.start ∧ place ≤ l.place) ∨
      ∃ s' ∈ sequence width last ts, s'.start = s.start ∧ s'.place = place := by
  induction ts generalizing last with
  | nil => cases h
  | cons t ts ih =>
      have hnext : place ≤ (next width t last).place →
          (∃ l, last = some l ∧ l.start = (next width t last).start ∧ place ≤ l.place) ∨
            ∃ s' ∈ sequence width last (t :: ts), s'.start = (next width t last).start ∧
              s'.place = place := by
        intro hle
        have hself : next width t last ∈ sequence width last (t :: ts) := List.mem_cons_self ..
        cases last with
        | none =>
            have h1 : place = 1 := le_antisymm hle hp
            exact .inr ⟨_, hself, rfl, h1.symm⟩
        | some l =>
            by_cases hnew : l.start + width ≤ t
            · rw [next, if_pos hnew] at hle hself ⊢
              have h1 : place = 1 := le_antisymm hle hp
              exact .inr ⟨_, hself, rfl, h1.symm⟩
            · rw [next, if_neg hnew] at hle hself ⊢
              rcases Nat.lt_or_eq_of_le hle with hlt | heq
              · exact .inl ⟨l, rfl, rfl, Nat.le_of_lt_succ hlt⟩
              · exact .inr ⟨_, hself, rfl, heq.symm⟩
      rcases List.mem_cons.mp h with rfl | h
      · exact hnext hle
      · rcases ih h with ⟨l, hl, hs, hpl⟩ | ⟨s', hs', hstart, hplace⟩
        · cases hl
          exact hs ▸ hnext hpl
        · exact .inr ⟨s', List.mem_cons_of_mem _ hs', hstart, hplace⟩

theorem mem_sequence_replicate {last : Slot} {t : Nat} (ht : t < last.start + width) (n : Nat) :
    ⟨t, last.start, last.place + n + 1⟩ ∈
      sequence width (some last) (List.replicate (n + 1) t) := by
  induction n generalizing last with
  | zero =>
      rw [List.replicate_succ, sequence, next, if_neg (not_le.mpr ht)]
      exact List.mem_cons_self ..
  | succ n ih =>
      rw [List.replicate_succ, sequence, next, if_neg (not_le.mpr ht)]
      refine List.mem_cons_of_mem _ ?_
      rw [show last.place + (n + 1) + 1 = last.place + 1 + n + 1 by omega]
      exact @ih ⟨t, last.start, last.place + 1⟩ ht

/-- Hits whose places go up from the first to the limit are no more than that. -/
theorem length_le_of_places {l : List Slot} {limit : Nat}
    (hl : l.Pairwise (fun a b => a.place < b.place)) (h : ∀ s ∈ l, 1 ≤ s.place ∧ s.place ≤ limit) :
    l.length ≤ limit := by
  have hnodup : (l.map Slot.place).Nodup := by
    rw [List.nodup_iff_pairwise_ne, List.pairwise_map]
    exact hl.imp (fun hab => hab.ne)
  have hsub : l.map Slot.place ⊆ List.range' 1 limit := by
    intro p hp
    obtain ⟨s, hs, rfl⟩ := List.mem_map.mp hp
    rw [List.mem_range'_1]
    have := h s hs
    omega
  simpa using (List.subperm_of_subset hnodup hsub).length_le

/-- Of the first places of each window, no more than twice the limit fall into
a time as long as a window: there are at most two windows to meet. -/
theorem admitted_le (hw : 0 < width) {ts : List Nat} (hts : ts.Pairwise (· ≤ ·)) (limit t : Nat) :
    ((sequence width none ts).filter (fun s =>
      s.place ≤ limit ∧ t ≤ s.time ∧ s.time < t + width)).length ≤ 2 * limit := by
  have hmem : ∀ s ∈ (sequence width none ts).filter (fun s =>
      s.place ≤ limit ∧ t ≤ s.time ∧ s.time < t + width),
      (1 ≤ s.place ∧ s.place ≤ limit) ∧ t < s.start + width ∧ s.start < t + width := by
    intro s hs
    obtain ⟨hs, hp, ht, ht'⟩ := by simpa using hs
    have h1 := place_pos hs
    have h2 := time_lt hw hs
    have h3 := start_le (by simp) hts hs
    exact ⟨⟨h1, hp⟩, by omega, by omega⟩
  have hpair := (@sequence_pairwise width none ts).filter (fun s =>
    s.place ≤ limit ∧ t ≤ s.time ∧ s.time < t + width)
  generalize (sequence width none ts).filter _ = l at hmem hpair
  have hpart (p : Slot → Bool) (hp : ∀ a b, t < a.start + width → b.start < t + width →
      p a = true → p b = true → ¬ a.start + width ≤ b.start) : (l.filter p).length ≤ limit := by
    refine length_le_of_places ?_ (fun s hs => (hmem s (List.mem_of_mem_filter hs)).1)
    refine (hpair.filter p).imp_of_mem (fun {a b} ha hb hab => ?_)
    obtain ⟨ha, hpa⟩ := List.mem_filter.mp ha
    obtain ⟨hb, hpb⟩ := List.mem_filter.mp hb
    rcases hab with ⟨-, hlt⟩ | hgap
    · exact hlt
    · exact absurd hgap (hp a b (hmem a ha).2.1 (hmem b hb).2.2 hpa hpb)
  have hearly := hpart (fun s => s.start ≤ t) (fun a b _ _ _ hb => by
    have := of_decide_eq_true hb
    omega)
  have hlate := hpart (fun s => !decide (s.start ≤ t)) (fun a b _ _ ha _ => by
    have ha : ¬ a.start ≤ t := by simpa using ha
    omega)
  have hsplit : l.length = (l.filter (fun s => decide (s.start ≤ t))).length +
      (l.filter (fun s => !decide (s.start ≤ t))).length :=
    List.length_eq_length_filter_add _
  omega

end Slot

end AiterCommerce.Throttle
