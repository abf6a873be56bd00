import Mathlib.Data.List.Infix

namespace AiterCommerce.Encoding.Delimited

variable {α : Type}

section Lines

variable [BEq α] [LawfulBEq α] {mark : α}

def unlines (mark : α) (ls : List (List α)) : List α := ls.flatMap (· ++ [mark])

theorem notMem_of_mem_splitOn {xs l : List α} (h : l ∈ xs.splitOn mark) : mark ∉ l := by
  induction xs generalizing l with
  | nil =>
      rw [List.splitOn_nil, List.mem_singleton] at h
      rw [h]
      exact List.not_mem_nil
  | cons x xs ih =>
      rw [List.splitOn_cons_eq_if_modifyHead] at h
      split at h
      next =>
        rcases List.mem_cons.mp h with rfl | h
        · exact List.not_mem_nil
        · exact ih h
      next hx =>
        cases hpieces : xs.splitOn mark with
        | nil => exact absurd hpieces (List.splitOn_ne_nil mark xs)
        | cons p ps =>
            rw [hpieces] at h ih
            rcases List.mem_cons.mp h with rfl | h
            · rw [List.mem_cons, not_or]
              exact ⟨fun he => hx (beq_iff_eq.mpr he.symm), ih List.mem_cons_self⟩
            · exact ih (List.mem_cons_of_mem _ h)

/-- Texts come back from their lines exactly when none of them has the mark in it. -/
theorem splitOn_unlines_iff {ls : List (List α)} :
    (unlines mark ls).splitOn mark = ls ++ [[]] ↔ ∀ l ∈ ls, mark ∉ l := by
  constructor
  · intro h l hl
    have hpiece : l ∈ (unlines mark ls).splitOn mark := by
      rw [h]
      exact List.mem_append_left _ hl
    exact notMem_of_mem_splitOn hpiece
  · intro h
    induction ls with
    | nil => rfl
    | cons l ls ih =>
        rw [unlines, List.flatMap_cons, List.append_assoc, List.singleton_append,
          List.splitOn_append_cons_self_of_not_mem (h l List.mem_cons_self), List.cons_append]
        exact congrArg (l :: ·) (ih (fun m hm => h m (List.mem_cons_of_mem _ hm)))

end Lines

section Separators

/-- The first element of a separator comes only once in it, so that it cannot
overlap itself. -/
def HeadOnce : List α → Prop
  | [] => False
  | c :: cs => c ∉ cs

theorem HeadOnce.length_pos {sep : List α} (h : HeadOnce sep) : 0 < sep.length := by
  cases sep with
  | nil => exact h.elim
  | cons c cs => exact Nat.succ_pos _

theorem sep_eq_append {sep r a s : List α} (hsep : HeadOnce sep)
    (h : sep ++ r = a ++ (sep ++ s)) :
    a = [] ∧ r = s ∨ ∃ z, a = sep ++ z ∧ r = z ++ (sep ++ s) := by
  rcases List.append_eq_append_iff.mp h with ⟨z, ha, hr⟩ | ⟨b, hb, hs⟩
  · exact .inr ⟨z, ha, hr⟩
  · cases sep with
    | nil => cases hsep
    | cons c cs =>
        cases a with
        | nil =>
            refine .inl ⟨rfl, ?_⟩
            exact List.append_cancel_left h
        | cons d a =>
            obtain ⟨rfl, hcs⟩ := List.cons.inj hb
            cases b with
            | nil =>
                refine .inr ⟨[], ?_, ?_⟩
                · rw [List.append_nil, hb, List.append_nil]
                · exact hs.symm
            | cons e b =>
                obtain ⟨rfl, -⟩ := List.cons.inj hs
                refine absurd ?_ hsep
                rw [hcs]
                exact List.mem_append_right _ List.mem_cons_self

/-- Two texts cut at a separator are one text only when they are cut at the same
place, or one of them has the separator in its first part. -/
theorem append_sep_eq {sep x y r s : List α} (hsep : HeadOnce sep)
    (h : x ++ (sep ++ r) = y ++ (sep ++ s)) :
    x = y ∧ r = s ∨ (∃ z, x = y ++ (sep ++ z)) ∨ ∃ z, y = x ++ (sep ++ z) ∧ r = z ++ (sep ++ s) := by
  rcases List.append_eq_append_iff.mp h with ⟨a, rfl, hr⟩ | ⟨a, rfl, hs⟩
  · rcases sep_eq_append hsep hr with ⟨rfl, rfl⟩ | ⟨z, rfl, rfl⟩
    · exact .inl ⟨(List.append_nil x).symm, rfl⟩
    · exact .inr (.inr ⟨z, rfl, rfl⟩)
  · rcases sep_eq_append hsep hs with ⟨rfl, rfl⟩ | ⟨z, rfl, -⟩
    · exact .inl ⟨List.append_nil y, rfl⟩
    · exact .inr (.inl ⟨z, rfl⟩)

structure Separators (α : Type) where
  first : List α
  second : List α
  first_once : HeadOnce first
  second_once : HeadOnce second
  apart : ∀ c ∈ second, first.getLast? ≠ some c

namespace Separators

variable (S : Separators α) {x y z x' y' z' : List α}

def line (x y z : List α) : List α := x ++ (S.first ++ (y ++ (S.second ++ z)))

/-- No separator stands where it would be taken for one of the line's own. -/
structure Unambiguous (x y z : List α) : Prop where
  first_left : ¬ S.first <:+: x
  first_middle : ¬ S.first <:+: y
  second_middle : ¬ S.second <:+: y
  second_right : ∀ a b, z = a ++ (S.second ++ b) → b = []

variable {S}

theorem isInfix_of_eq {sep x a b : List α} (h : x = a ++ (sep ++ b)) : sep <:+: x :=
  ⟨a, b, by rw [h, List.append_assoc]⟩

theorem Unambiguous.not_later (h : S.Unambiguous x y z) (hz' : z' ≠ []) (w : List α) :
    y ++ (S.second ++ z) ≠ w ++ (S.first ++ (y' ++ (S.second ++ z'))) := by
  intro heq
  rw [← List.append_assoc w] at heq
  rcases List.append_eq_append_iff.mp heq with ⟨c, hc, hr⟩ | ⟨c, hc, -⟩
  · rcases List.append_eq_append_iff.mp hr with ⟨d, -, hz⟩ | ⟨d, hd, -⟩
    · rw [← List.append_assoc] at hz
      exact hz' (h.second_right _ _ hz)
    · rcases List.eq_nil_or_concat c with rfl | ⟨c, e, rfl⟩
      · rw [List.append_nil] at hc
        exact h.first_middle (isInfix_of_eq (b := []) (by rw [← hc, List.append_nil]))
      · have hlast := congrArg List.getLast? hc
        have hne : S.first ≠ [] := List.ne_nil_of_length_pos S.first_once.length_pos
        rw [List.getLast?_append_of_ne_nil _ hne] at hlast
        refine S.apart e ?_ (hlast.trans (by simp))
        rw [hd]
        simp
  · exact h.first_middle ⟨w, c, hc.symm⟩

theorem Unambiguous.eq (h : S.Unambiguous x y z) (hz' : z' ≠ [])
    (heq : S.line x' y' z' = S.line x y z) : x' = x ∧ y' = y ∧ z' = z := by
  rcases append_sep_eq S.first_once heq.symm with ⟨rfl, hrest⟩ | ⟨w, hx⟩ | ⟨w, -, hrest⟩
  · rcases append_sep_eq S.second_once hrest with ⟨rfl, rfl⟩ | ⟨w, hy⟩ | ⟨w, -, hz⟩
    · exact ⟨rfl, rfl, rfl⟩
    · exact absurd (isInfix_of_eq hy) h.second_middle
    · exact absurd (h.second_right _ _ hz) hz'
  · exact absurd (isInfix_of_eq hx) h.first_left
  · exact absurd hrest (h.not_later hz' w)

/-- The fields can be read back from the line exactly when it is unambiguous. -/
theorem unambiguous_iff (hz : z ≠ []) : S.Unambiguous x y z ↔
    ∀ x' y' z', z' ≠ [] → S.line x' y' z' = S.line x y z → x' = x ∧ y' = y ∧ z' = z := by
  have hfirst := S.first_once.length_pos
  have hsecond := S.second_once.length_pos
  constructor
  · intro h x' y' z' hz' heq
    exact h.eq hz' heq
  · intro h
    constructor
    · rintro ⟨a, b, rfl⟩
      obtain ⟨hx, -⟩ := h a (b ++ (S.first ++ y)) z hz (by simp only [line, List.append_assoc])
      have hlen := congrArg List.length hx
      simp only [List.length_append] at hlen
      omega
    · rintro ⟨a, b, rfl⟩
      obtain ⟨hx, -⟩ := h (x ++ (S.first ++ a)) b z hz (by simp only [line, List.append_assoc])
      have hlen := congrArg List.length hx
      simp only [List.length_append] at hlen
      omega
    · rintro ⟨a, b, rfl⟩
      obtain ⟨-, hy, -⟩ := h x a (b ++ (S.second ++ z)) (by simp [hz])
        (by simp only [line, List.append_assoc])
      have hlen := congrArg List.length hy
      simp only [List.length_append] at hlen
      omega
    · rintro a b rfl
      by_contra hb
      obtain ⟨-, hy, -⟩ := h x (y ++ (S.second ++ a)) b hb (by simp only [line, List.append_assoc])
      have hlen := congrArg List.length hy
      simp only [List.length_append] at hlen
      omega

end Separators

end Separators

end AiterCommerce.Encoding.Delimited
