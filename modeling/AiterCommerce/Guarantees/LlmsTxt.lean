import AiterCommerce.Encoding.Delimited
import AiterCommerce.Guarantees.Printed

namespace AiterCommerce.Guarantees.LlmsTxt

open AiterCommerce.Core Server Server.Pages Encoding.Delimited

structure Entry where
  title : String
  id : String
  text : String
  deriving DecidableEq

def entryOf (p : Product) : Entry := ⟨p.title, p.id, llmsText p⟩

def entries (st : AppState) : List Entry := st.products.map entryOf

def separators : Separators Char where
  first := "](/catalog/products/".toList
  second := "): ".toList
  first_once := by simp [HeadOnce]
  second_once := by simp [HeadOnce]
  apart := by simp

namespace Entry

def line (e : Entry) : List Char :=
  "- [".toList ++ separators.line e.title.toList e.id.toList e.text.toList

structure Plain (e : Entry) : Prop where
  title : '\n' ∉ e.title.toList
  id : '\n' ∉ e.id.toList
  text : '\n' ∉ e.text.toList

def Unambiguous (e : Entry) : Prop :=
  separators.Unambiguous e.title.toList e.id.toList e.text.toList

theorem plain_iff (e : Entry) : e.Plain ↔ '\n' ∉ e.line := by
  have hmark : '\n' ∉ "- [".toList := by decide
  have hfirst : '\n' ∉ separators.first := by decide
  have hsecond : '\n' ∉ separators.second := by decide
  simp only [line, Separators.line, List.mem_append, not_or, hmark, hfirst, hsecond,
    not_false_eq_true, true_and]
  exact ⟨fun h => ⟨h.title, h.id, h.text⟩, fun h => ⟨h.1, h.2.1, h.2.2⟩⟩

end Entry

def sectionLines (text : String) : List (List Char) :=
  (text.toList.drop llmsHeader.toList.length).splitOn '\n'

structure OneLineEach (st : AppState) : Prop where
  lines : sectionLines (llmsTxt st) = (entries st).map Entry.line ++ [[]]
  ascending : (entries st).Pairwise (fun a b => a.id ≤ b.id)

/-- No catalog with other entries has this text. -/
def Recoverable (st : AppState) : Prop := ∀ products razorpay,
  llmsTxt (.new products razorpay) = llmsTxt st → entries (.new products razorpay) = entries st

structure Faithful (st : AppState) : Prop where
  lines : OneLineEach st
  recoverable : Recoverable st

section Text

theorem toList_llmsTxt (st : AppState) : (llmsTxt st).toList =
    llmsHeader.toList ++ unlines '\n' ((entries st).map Entry.line) := by
  rw [llmsTxt, entries]
  generalize llmsHeader = out
  induction st.products generalizing out with
  | nil => simp [unlines]
  | cons p ps ih =>
      rw [List.foldl_cons, ih]
      simp only [String.toList_append, List.map_cons, unlines, List.flatMap_cons, Entry.line,
        Separators.line, entryOf, List.append_assoc]
      rfl

theorem llmsTxt_eq_iff (st st' : AppState) : llmsTxt st = llmsTxt st' ↔
    unlines '\n' ((entries st).map Entry.line) = unlines '\n' ((entries st').map Entry.line) := by
  rw [← String.toList_inj, toList_llmsTxt, toList_llmsTxt, List.append_right_inj]

theorem sectionLines_llmsTxt (st : AppState) : sectionLines (llmsTxt st) =
    (unlines '\n' ((entries st).map Entry.line)).splitOn '\n' := by
  rw [sectionLines, toList_llmsTxt, List.drop_left]

theorem ascending_new (products : List Product) (razorpay : Option RazorpaySettings) :
    (entries (.new products razorpay)).Pairwise (fun a b => a.id ≤ b.id) := by
  rw [entries, List.pairwise_map]
  exact AppState.new_sorted products razorpay

theorem oneLineEach_iff (products : List Product) (razorpay : Option RazorpaySettings) :
    OneLineEach (.new products razorpay) ↔
      ∀ e ∈ entries (.new products razorpay), e.Plain := by
  have hplain : (∀ e ∈ entries (.new products razorpay), e.Plain) ↔
      ∀ l ∈ (entries (.new products razorpay)).map Entry.line, '\n' ∉ l := by
    simp only [List.forall_mem_map, Entry.plain_iff]
  rw [hplain, ← splitOn_unlines_iff, ← sectionLines_llmsTxt]
  exact ⟨fun h => h.lines, fun h => ⟨h, ascending_new products razorpay⟩⟩

end Text

section Reading

theorem llmsText_ne_empty (p : Product) : llmsText p ≠ "" := by
  rw [llmsText]
  split
  next =>
    intro h
    have hlist := congrArg String.toList h
    rw [Printed.toList_formatAmount] at hlist
    simp at hlist
  next h => exact h

theorem text_ne_nil {st : AppState} {e : Entry} (h : e ∈ entries st) : e.text.toList ≠ [] := by
  obtain ⟨p, -, rfl⟩ := List.mem_map.mp h
  rw [ne_eq, String.toList_eq_nil_iff]
  exact llmsText_ne_empty p

def shownAs (e : Entry) : Product := ⟨e.id, e.title, ⟨0, .USD⟩, e.text, [], none, 0, none⟩

theorem entries_shownAs {e : Entry} (h : e.text ≠ "") (razorpay : Option RazorpaySettings) :
    entries (.new [shownAs e] razorpay) = [e] := by
  rw [entries, AppState.new, List.mergeSort_singleton, List.map_singleton, entryOf, llmsText,
    if_neg (show (shownAs e).description ≠ "" from h)]
  rfl

theorem unlines_eq_singleton {ls : List (List Char)} {l : List Char} (hl : '\n' ∉ l)
    (h : unlines '\n' ls = unlines '\n' [l]) : ls = [l] := by
  cases ls with
  | nil => simp [unlines] at h
  | cons m ms =>
      have hcons : m ++ (['\n'] ++ unlines '\n' ms) = l ++ (['\n'] ++ []) := by
        simpa [unlines] using h
      have hmark : HeadOnce ['\n'] := List.not_mem_nil
      rcases append_sep_eq hmark hcons with ⟨rfl, hms⟩ | ⟨z, rfl⟩ | ⟨z, rfl, -⟩
      · cases ms with
        | nil => rfl
        | cons n ns => simp [unlines] at hms
      · have hlen := congrArg List.length hcons
        simp only [List.length_append, List.length_cons, List.length_nil] at hlen
        omega
      · simp at hl

theorem entry_eq {e e' : Entry} (h : e.Unambiguous) (htext : e'.text.toList ≠ [])
    (heq : e'.line = e.line) : e' = e := by
  obtain ⟨htitle, hid, htxt⟩ := Separators.Unambiguous.eq h htext (List.append_cancel_left heq)
  obtain ⟨title, id, text⟩ := e
  obtain ⟨title', id', text'⟩ := e'
  rw [Entry.mk.injEq]
  exact ⟨String.toList_inj.mp htitle, String.toList_inj.mp hid, String.toList_inj.mp htxt⟩

/-- Of a single plain entry, the text is no other catalog's exactly when the line
can be read in one way only. -/
theorem recoverable_single {st : AppState} {e : Entry} (he : entries st = [e]) (hplain : e.Plain) :
    Recoverable st ↔ e.Unambiguous := by
  have htext : e.text.toList ≠ [] := text_ne_nil (he ▸ List.mem_singleton_self e)
  have hline := (Entry.plain_iff e).mp hplain
  rw [Entry.Unambiguous, Separators.unambiguous_iff htext]
  constructor
  · intro h x y z hz heq
    have hne : String.ofList z ≠ "" := fun hempty => hz (by simpa using congrArg String.toList hempty)
    have hentries := entries_shownAs (e := ⟨.ofList x, .ofList y, .ofList z⟩) hne none
    have hsame := h [shownAs ⟨.ofList x, .ofList y, .ofList z⟩] none (by
      rw [llmsTxt_eq_iff, hentries, he, List.map_singleton, List.map_singleton, Entry.line,
        Entry.line]
      simp only [String.toList_ofList, heq])
    rw [hentries, he] at hsame
    obtain rfl := List.singleton_inj.mp hsame
    simp only [String.toList_ofList, and_self]
  · intro h products razorpay hsame
    rw [llmsTxt_eq_iff, he] at hsame
    have hlines := unlines_eq_singleton hline hsame
    obtain ⟨e', hentries, heq⟩ := List.map_eq_singleton_iff.mp hlines
    have he' : e' ∈ entries (.new products razorpay) := hentries ▸ List.mem_singleton_self e'
    have htext' := text_ne_nil he'
    rw [hentries, he, entry_eq ((Separators.unambiguous_iff htext).mpr h) htext' heq]

theorem unlines_cons_concat (l : List Char) (ls : List (List Char)) :
    ∃ m, unlines '\n' (l :: ls) = m ++ ['\n'] := by
  induction ls generalizing l with
  | nil => exact ⟨l, by simp [unlines]⟩
  | cons k ls ih =>
      obtain ⟨m, hm⟩ := ih k
      refine ⟨l ++ ('\n' :: m), ?_⟩
      rw [unlines, List.flatMap_cons, List.append_assoc, ← unlines, hm]
      simp

/-- The text of the first of several entries can take in the lines of the others. -/
def absorbed (e : Entry) (rest : List Char) : Entry :=
  { e with text := e.text ++ "\n" ++ String.ofList rest }

theorem not_recoverable {st : AppState} {e f : Entry} {es : List Entry}
    (h : entries st = e :: f :: es) : ¬ Recoverable st := by
  intro hrec
  obtain ⟨m, hm⟩ := unlines_cons_concat f.line (es.map Entry.line)
  have hne : (absorbed e m).text ≠ "" := fun hempty => by
    simpa [absorbed] using congrArg String.toList hempty
  have hentries := entries_shownAs hne none
  have hlines : unlines '\n' [(absorbed e m).line] =
      unlines '\n' (e.line :: f.line :: es.map Entry.line) := by
    rw [unlines, List.flatMap_cons, unlines, List.flatMap_cons, ← unlines, ← unlines, hm]
    simp [absorbed, Entry.line, Separators.line, unlines]
  have hsame := hrec [shownAs (absorbed e m)] none (by
    rw [llmsTxt_eq_iff, hentries, h]
    exact hlines)
  rw [hentries, h] at hsame
  have hlength := congrArg List.length hsame
  simp at hlength

theorem recoverable_nil {st : AppState} (he : entries st = []) : Recoverable st := by
  intro products razorpay h
  rw [llmsTxt_eq_iff, he] at h
  rw [he]
  cases hentries : entries (.new products razorpay) with
  | nil => rfl
  | cons e es =>
      rw [hentries] at h
      simp [unlines] at h

end Reading

section Faithfulness

/-- Line by line, unambiguous entries are the only ones that print as they do. -/
theorem entries_eq_of_lines {es es' : List Entry} (h : ∀ e ∈ es, e.Unambiguous)
    (htext : ∀ e ∈ es', e.text.toList ≠ []) (heq : es'.map Entry.line = es.map Entry.line) :
    es' = es := by
  induction es generalizing es' with
  | nil => exact List.map_eq_nil_iff.mp heq
  | cons e es ih =>
      cases es' with
      | nil => cases heq
      | cons e' es' =>
          obtain ⟨hhead, htail⟩ := List.cons.inj heq
          rw [entry_eq (h e List.mem_cons_self) (htext e' List.mem_cons_self) hhead,
            ih (fun f hf => h f (List.mem_cons_of_mem _ hf))
              (fun f hf => htext f (List.mem_cons_of_mem _ hf)) htail]

/-- Each product has its one line exactly when no field has a line feed in it. The
text is no other catalog's exactly when there is at most one product besides, and no
separator stands in its fields. Between catalogs with a line for each product the
separators alone matter. -/
theorem llmsTxt_faithful (products : List Product) (razorpay : Option RazorpaySettings) :
    (OneLineEach (.new products razorpay) ↔
      ∀ e ∈ entries (.new products razorpay), e.Plain) ∧
    (Faithful (.new products razorpay) ↔
      products.length ≤ 1 ∧ ∀ e ∈ entries (.new products razorpay), e.Plain ∧ e.Unambiguous) ∧
    ((∀ e ∈ entries (.new products razorpay), e.Plain ∧ e.Unambiguous) →
      ∀ products' razorpay', OneLineEach (.new products' razorpay') →
        llmsTxt (.new products' razorpay') = llmsTxt (.new products razorpay) →
          entries (.new products' razorpay') = entries (.new products razorpay)) := by
  obtain ⟨st, hst⟩ : ∃ st, st = AppState.new products razorpay := ⟨_, rfl⟩
  have hlength : (entries st).length = products.length := by
    rw [entries, List.length_map, hst]
    exact List.length_mergeSort products
  have hlines := oneLineEach_iff products razorpay
  rw [← hst] at hlines ⊢
  refine ⟨hlines, ?_, ?_⟩
  · cases hentries : entries st with
    | nil =>
        have hplain : ∀ e ∈ entries st, e.Plain := by simp [hentries]
        rw [hentries] at hlength
        refine ⟨fun _ => ⟨by simp [← hlength], by simp⟩, fun _ => ?_⟩
        exact ⟨hlines.mpr hplain, recoverable_nil hentries⟩
    | cons e es =>
        cases es with
        | nil =>
            rw [hentries] at hlength hlines
            have hone : products.length ≤ 1 := hlength.symm.le
            simp only [List.mem_singleton, forall_eq] at hlines ⊢
            constructor
            · intro h
              have hplain := hlines.mp h.lines
              exact ⟨hone, hplain, (recoverable_single hentries hplain).mp h.recoverable⟩
            · rintro ⟨-, hplain, hunambiguous⟩
              exact ⟨hlines.mpr hplain, (recoverable_single hentries hplain).mpr hunambiguous⟩
        | cons f es =>
            rw [hentries] at hlength
            constructor
            · intro h
              exact absurd h.recoverable (not_recoverable hentries)
            · rintro ⟨hone, -⟩
              simp only [List.length_cons] at hlength
              omega
  · intro h products' razorpay' hlines' hsame
    have heq := hlines'.lines
    rw [hsame, (hlines.mpr (fun e he => (h e he).1)).lines] at heq
    exact entries_eq_of_lines (fun e he => (h e he).2) (fun e he => text_ne_nil he)
      (List.append_cancel_right heq).symm

def coffee : Product := ⟨"a", "Coffee", ⟨450, .USD⟩, "Hot", [], none, 5, none⟩

def tea : Product := ⟨"b", "Tea", ⟨300, .USD⟩, "Green", [], none, 5, none⟩

def forged : Product :=
  { coffee with description := "Hot\n- [Tea](/catalog/products/b): Green" }

/-- One product can print as two, the second of which is not in the catalog. -/
theorem llmsTxt_forged :
    llmsTxt (.new [coffee, tea] none) = llmsTxt (.new [forged] none) ∧
    entries (.new [coffee, tea] none) ≠ entries (.new [forged] none) ∧
    ¬ OneLineEach (.new [forged] none) ∧
    ¬ ∀ products razorpay, Faithful (.new products razorpay) := by
  have htwo : entries (.new [coffee, tea] none) =
      [⟨"Coffee", "a", "Hot"⟩, ⟨"Tea", "b", "Green"⟩] := by
    rw [entries, AppState.new, List.mergeSort_of_pairwise (by decide)]
    rfl
  have hone : entries (.new [forged] none) =
      [⟨"Coffee", "a", "Hot\n- [Tea](/catalog/products/b): Green"⟩] := by
    rw [entries, AppState.new, List.mergeSort_singleton]
    rfl
  have htext : llmsTxt (.new [coffee, tea] none) = llmsTxt (.new [forged] none) := by
    rw [llmsTxt_eq_iff, htwo, hone]
    decide
  have hne : entries (.new [coffee, tea] none) ≠ entries (.new [forged] none) := by
    rw [htwo, hone]
    decide
  refine ⟨htext, hne, ?_, ?_⟩
  · intro h
    have hplain := (oneLineEach_iff [forged] none).mp h _ (hone ▸ List.mem_singleton_self _)
    exact absurd hplain.text (by decide)
  · intro h
    exact hne ((h [forged] none).recoverable [coffee, tea] none htext)

end Faithfulness

end AiterCommerce.Guarantees.LlmsTxt
