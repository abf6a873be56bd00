import Mathlib.Data.List.Pairwise
import Mathlib.Data.List.Perm.Basic

namespace AiterCommerce.Sorting

variable {α : Type} {le : α → α → Bool} {l : List α} {a b : α}

/-- Two elements of a list stand in it one before the other. -/
theorem pair_sublist_or (ha : a ∈ l) (hb : b ∈ l) (hne : a ≠ b) :
    List.Sublist [a, b] l ∨ List.Sublist [b, a] l := by
  have hsymm : Std.Symm (fun a b => List.Sublist [a, b] l ∨ List.Sublist [b, a] l) :=
    ⟨fun _ _ => Or.symm⟩
  have hpair : l.Pairwise (fun a b => List.Sublist [a, b] l ∨ List.Sublist [b, a] l) :=
    List.pairwise_iff_forall_sublist.mpr Or.inl
  exact hpair.forall ha hb hne

section Sorted

variable (trans : ∀ a b c, le a b = true → le b c = true → le a c = true)
  (total : ∀ a b, (le a b || le b a) = true)
include trans total

theorem le_of_pair_sublist (h : List.Sublist [a, b] (l.mergeSort le)) : le a b = true :=
  List.pairwise_iff_forall_sublist.mp (List.pairwise_mergeSort trans total l) h

theorem pair_sublist_of_lt (ha : a ∈ l) (hb : b ∈ l) (hle : ¬ le b a = true) :
    List.Sublist [a, b] (l.mergeSort le) := by
  have hne : a ≠ b := by
    rintro rfl
    have hself := total a a
    rw [Bool.or_self] at hself
    exact hle hself
  rcases pair_sublist_or (List.mem_mergeSort.mpr ha) (List.mem_mergeSort.mpr hb) hne with h | h
  · exact h
  · exact absurd (le_of_pair_sublist trans total h) hle

/-- The elements as great as a given one stay in the order they were in. -/
theorem filter_mergeSort (a : α) :
    (l.mergeSort le).filter (fun b => le a b && le b a) = l.filter (fun b => le a b && le b a) := by
  have hsorted : (l.filter (fun b => le a b && le b a)).Pairwise (fun b c => le b c = true) := by
    refine List.pairwise_of_forall_mem_list ?_
    intro b hb c hc
    have hb' := (Bool.and_eq_true _ _ ▸ List.of_mem_filter hb : _ ∧ _)
    have hc' := (Bool.and_eq_true _ _ ▸ List.of_mem_filter hc : _ ∧ _)
    exact trans b a c hb'.2 hc'.1
  have hsub : List.Sublist (l.filter (fun b => le a b && le b a)) (l.mergeSort le) :=
    List.sublist_mergeSort trans total hsorted List.filter_sublist
  have hfilter := hsub.filter (fun b => le a b && le b a)
  rw [List.filter_filter] at hfilter
  simp only [Bool.and_self] at hfilter
  refine (hfilter.eq_of_length ?_).symm
  exact ((List.mergeSort_perm l le).filter _).length_eq.symm

theorem pair_sublist_of_tie (h : List.Sublist [a, b] (l.mergeSort le)) (hle : le b a = true) :
    List.Sublist [a, b] l := by
  have hab := le_of_pair_sublist trans total h
  have haa := total a a
  rw [Bool.or_self] at haa
  have hfilter := h.filter (fun c => le a c && le c a)
  rw [filter_mergeSort trans total, List.filter_cons_of_pos (by simp [haa]),
    List.filter_cons_of_pos (by simp [hab, hle]), List.filter_nil] at hfilter
  exact hfilter.trans List.filter_sublist

end Sorted

end AiterCommerce.Sorting
