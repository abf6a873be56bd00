import Mathlib.Data.List.Nodup
import Std.Data.String.ToInt

namespace AiterCommerce.Encoding.Json

def hexDigit (n : Nat) : Char := "0123456789abcdef".toList.getD n '0'

/-- Quotes, backslashes and control characters are escaped, nothing else. -/
def escape (c : Char) : List Char :=
  if c = '"' then ['\\', '"']
  else if c = '\\' then ['\\', '\\']
  else if c = '\n' then ['\\', 'n']
  else if c = '\r' then ['\\', 'r']
  else if c = '\t' then ['\\', 't']
  else if c.toNat = 8 then ['\\', 'b']
  else if c.toNat = 12 then ['\\', 'f']
  else if c.toNat < 32 then
    ['\\', 'u', '0', '0', hexDigit (c.toNat / 16), hexDigit (c.toNat % 16)]
  else [c]

def quote (s : String) : String := "\"" ++ String.ofList (s.toList.flatMap escape) ++ "\""

def numeric (c : Char) : Bool := c.isDigit || c = '-' || c = '+' || c = '.' || c = 'e' || c = 'E'

def fractional (c : Char) : Bool := c = '.' || c = 'e' || c = 'E'

/-- A number that is not an integer, as it is written. -/
structure FloatLiteral where
  text : List Char
  all_numeric : ∀ c ∈ text, numeric c = true
  is_fractional : ∃ c ∈ text, fractional c = true

/-- A JSON value. The members of an object are in the order they are written in. -/
inductive Value
  | null
  | bool (b : Bool)
  | int (n : Int)
  | float (x : FloatLiteral)
  | string (s : String)
  | array (items : List Value)
  | object (members : List (String × Value))

/-- Later members of one name hide earlier ones. -/
def Value.get (key : String) : Value → Option Value
  | .object members => (members.findRev? (fun m => m.1 = key)).map Prod.snd
  | _ => none

/-- An object that keeps its members by name. -/
def sortedObject (members : List (String × Value)) : Value :=
  .object (members.mergeSort (fun a b => decide (a.1 ≤ b.1)))

def Value.asStr : Value → Option String
  | .string s => some s
  | _ => none

mutual

/-- The text of a value, without blanks. -/
def Value.chars : Value → List Char
  | .null => ['n', 'u', 'l', 'l']
  | .bool true => ['t', 'r', 'u', 'e']
  | .bool false => ['f', 'a', 'l', 's', 'e']
  | .int n => (toString n).toList
  | .float x => x.text
  | .string s => (quote s).toList
  | .array items => '[' :: itemsChars [] items
  | .object members => '\x7b' :: membersChars [] members

def itemsChars (separator : List Char) : List Value → List Char
  | [] => [']']
  | v :: vs => separator ++ (v.chars ++ itemsChars [','] vs)

def membersChars (separator : List Char) : List (String × Value) → List Char
  | [] => ['\x7d']
  | (key, v) :: ms => separator ++ ((quote key).toList ++ ':' :: (v.chars ++ membersChars [','] ms))

end

def Value.text (v : Value) : String := String.ofList v.chars

example : (Value.object [("a", .array [.int (-7), .string "x\n"]), ("b", .null)]).text =
    "\x7b\"a\":[-7,\"x\\n\"],\"b\":null\x7d" := by decide

theorem get_sortedObject {members : List (String × Value)} (hn : (members.map Prod.fst).Nodup)
    {key : String} {v : Value} (h : (key, v) ∈ members) :
    (sortedObject members).get key = some v := by
  rw [sortedObject, Value.get]
  have hmem : (key, v) ∈ members.mergeSort (fun a b => decide (a.1 ≤ b.1)) :=
    List.mem_mergeSort.mpr h
  cases hfind : (members.mergeSort (fun a b => decide (a.1 ≤ b.1))).findRev?
      (fun m => decide (m.1 = key)) with
  | none =>
      rw [List.findRev?_eq_find?_reverse, List.find?_eq_none] at hfind
      exact absurd (decide_eq_true rfl) (hfind _ (List.mem_reverse.mpr hmem))
  | some m =>
      rw [List.findRev?_eq_find?_reverse] at hfind
      have hm := List.mem_mergeSort.mp (List.mem_reverse.mp (List.mem_of_find?_eq_some hfind))
      have hkey := List.find?_some hfind
      have heq : m = (key, v) := List.inj_on_of_nodup_map hn hm h (of_decide_eq_true hkey)
      rw [heq]
      rfl

theorem get_sortedObject_none {members : List (String × Value)} {key : String}
    (h : key ∉ members.map Prod.fst) : (sortedObject members).get key = none := by
  rw [sortedObject, Value.get, List.findRev?_eq_find?_reverse, Option.map_eq_none_iff,
    List.find?_eq_none]
  intro m hm hkey
  have hmem : m ∈ members := List.mem_mergeSort.mp (List.mem_reverse.mp hm)
  exact h (List.mem_map.mpr ⟨m, hmem, of_decide_eq_true hkey⟩)

section Characters

def hexValue (c : Char) : Nat := if c.isDigit then c.toNat - 48 else c.toNat - 87

def unescape : List Char → Option (Char × List Char)
  | '\\' :: 'u' :: '0' :: '0' :: a :: b :: r =>
      some (Char.ofNat (16 * hexValue a + hexValue b), r)
  | '\\' :: 'n' :: r => some ('\n', r)
  | '\\' :: 'r' :: r => some ('\r', r)
  | '\\' :: 't' :: r => some ('\t', r)
  | '\\' :: 'b' :: r => some (Char.ofNat 8, r)
  | '\\' :: 'f' :: r => some (Char.ofNat 12, r)
  | '\\' :: c :: r => some (c, r)
  | '"' :: _ | [] => none
  | c :: r => some (c, r)

theorem hexValue_hexDigit : ∀ n < 16, hexValue (hexDigit n) = n := by decide

theorem unescape_escape (c : Char) (r : List Char) : unescape (escape c ++ r) = some (c, r) := by
  have named (n : Nat) (h : c.toNat = n) : c = Char.ofNat n := by rw [← h, Char.ofNat_toNat]
  rw [escape]
  split_ifs with hq hs hn hr ht hb hf hlt
  · rw [hq]; rfl
  · rw [hs]; rfl
  · rw [hn]; rfl
  · rw [hr]; rfl
  · rw [ht]; rfl
  · rw [named 8 hb]; rfl
  · rw [named 12 hf]; rfl
  · have hhigh := hexValue_hexDigit (c.toNat / 16) (by omega)
    have hlow := hexValue_hexDigit (c.toNat % 16) (by omega)
    have hsum : 16 * (c.toNat / 16) + c.toNat % 16 = c.toNat := Nat.div_add_mod _ _
    change some (Char.ofNat (16 * hexValue (hexDigit (c.toNat / 16)) +
      hexValue (hexDigit (c.toNat % 16))), r) = some (c, r)
    rw [hhigh, hlow, hsum, Char.ofNat_toNat]
  · rw [List.singleton_append, unescape] <;> simp [hq, hs]

theorem escape_append_ne (c : Char) (r s : List Char) : escape c ++ r ≠ '"' :: s := by
  intro h
  have hread := unescape_escape c r
  rw [h] at hread
  cases hread

theorem escaped_unique {cs ds r s : List Char}
    (h : cs.flatMap escape ++ '"' :: r = ds.flatMap escape ++ '"' :: s) : cs = ds ∧ r = s := by
  induction cs generalizing ds with
  | nil =>
      cases ds with
      | nil => exact ⟨rfl, (List.cons.inj h).2⟩
      | cons d ds =>
          rw [List.flatMap_cons, List.append_assoc] at h
          exact absurd h.symm (escape_append_ne d _ _)
  | cons c cs ih =>
      rw [List.flatMap_cons, List.append_assoc] at h
      cases ds with
      | nil => exact absurd h (escape_append_ne c _ _)
      | cons d ds =>
          rw [List.flatMap_cons, List.append_assoc] at h
          have hread := unescape_escape c (cs.flatMap escape ++ '"' :: r)
          rw [h, unescape_escape] at hread
          obtain ⟨rfl, hrest⟩ := Prod.mk.inj (Option.some.inj hread)
          obtain ⟨rfl, rfl⟩ := ih hrest.symm
          exact ⟨rfl, rfl⟩

theorem toList_quote (s : String) :
    (quote s).toList = '"' :: (s.toList.flatMap escape ++ ['"']) := by
  simp only [quote, String.toList_append, String.toList_ofList, List.append_assoc]
  rfl

theorem quote_unique {x y : String} {r s : List Char}
    (h : (quote x).toList ++ r = (quote y).toList ++ s) : x = y ∧ r = s := by
  rw [toList_quote, toList_quote] at h
  have hbody := (List.cons.inj h).2
  simp only [List.append_eq, List.append_assoc] at hbody
  obtain ⟨hxy, hrs⟩ := escaped_unique hbody
  exact ⟨String.toList_inj.mp hxy, hrs⟩

end Characters

section Numbers

def Ends (r : List Char) : Prop := ∀ c s, r = c :: s → numeric c = false

theorem ends_cons {c : Char} (h : numeric c = false) (r : List Char) : Ends (c :: r) := by
  rintro d s hd
  obtain ⟨rfl, -⟩ := List.cons.inj hd
  exact h

theorem numeral_unique {t u r s : List Char} (ht : ∀ c ∈ t, numeric c = true)
    (hu : ∀ c ∈ u, numeric c = true) (hr : Ends r) (hs : Ends s) (h : t ++ r = u ++ s) :
    t = u ∧ r = s := by
  induction t generalizing u with
  | nil =>
      cases u with
      | nil => exact ⟨rfl, h⟩
      | cons c u =>
          have hc := hr c (u ++ s) h
          rw [hu c List.mem_cons_self] at hc
          cases hc
  | cons c t ih =>
      obtain ⟨hc, ht⟩ := List.forall_mem_cons.mp ht
      cases u with
      | nil =>
          have hn := hs c (t ++ r) h.symm
          rw [hc] at hn
          cases hn
      | cons d u =>
          obtain ⟨rfl, hrest⟩ := List.cons.inj h
          obtain ⟨rfl, rfl⟩ := ih ht (List.forall_mem_cons.mp hu).2 hrest
          exact ⟨rfl, rfl⟩

theorem mem_toString_int {n : Int} {c : Char} (h : c ∈ (toString n).toList) :
    c.isDigit = true ∨ c = '-' := by
  have digits {m : Nat} (hc : c ∈ m.repr.toList) : c.isDigit = true := by
    rw [Nat.toList_repr] at hc
    exact Nat.isDigit_of_mem_toDigits (by decide) (by decide) hc
  rw [Int.toString_eq_repr, Int.repr_eq_if] at h
  split at h
  · exact .inl (digits h)
  · rw [String.toList_append] at h
    rcases List.mem_append.mp h with h | h
    · exact .inr (List.mem_singleton.mp h)
    · exact .inl (digits h)

theorem numeric_of_mem_int {n : Int} : ∀ c ∈ (toString n).toList, numeric c = true := by
  intro c hc
  rcases mem_toString_int hc with hd | rfl
  · simp [numeric, hd]
  · rfl

theorem not_fractional_of_mem_int {n : Int} : ∀ c ∈ (toString n).toList, fractional c = false := by
  intro c hc
  rcases mem_toString_int hc with hd | rfl
  · rw [← Bool.not_eq_true]
    intro hf
    simp only [fractional, Bool.or_eq_true, decide_eq_true_eq] at hf
    rcases hf with (rfl | rfl) | rfl <;> exact absurd hd (by decide)
  · rfl

theorem toString_int_ne_nil (n : Int) : (toString n).toList ≠ [] := by
  rw [Int.toString_eq_repr, Int.repr_eq_if]
  split
  · rw [Nat.toList_repr]
    exact Nat.toDigits_ne_nil
  · rw [String.toList_append]
    exact List.append_ne_nil_of_left_ne_nil (by decide) _

theorem FloatLiteral.text_ne_nil (x : FloatLiteral) : x.text ≠ [] := by
  obtain ⟨c, hc, -⟩ := x.is_fractional
  exact List.ne_nil_of_mem hc

theorem FloatLiteral.ext {x y : FloatLiteral} (h : x.text = y.text) : x = y := by
  cases x
  cases y
  cases h
  rfl

theorem int_text_ne_float (n : Int) (x : FloatLiteral) : (toString n).toList ≠ x.text := by
  intro h
  obtain ⟨c, hc, hf⟩ := x.is_fractional
  rw [not_fractional_of_mem_int c (h ▸ hc)] at hf
  cases hf

end Numbers

section Unique

def Value.kind : Value → Nat
  | .null => 0
  | .bool _ => 1
  | .int _ | .float _ => 2
  | .string _ => 3
  | .array _ => 4
  | .object _ => 5

def kindOf (c : Char) : Nat :=
  if c = 'n' then 0 else if c = 't' ∨ c = 'f' then 1 else if c = '"' then 3
  else if c = '[' then 4 else if c = '\x7b' then 5 else if c = ']' then 6 else 2

theorem kindOf_numeric {c : Char} (h : numeric c = true) : kindOf c = 2 := by
  have hne (d : Char) (hd : numeric d = false) : c ≠ d := by
    rintro rfl
    rw [h] at hd
    cases hd
  rw [kindOf, if_neg (hne 'n' (by decide)), if_neg (by simp [hne 't' (by decide), hne 'f' (by decide)]),
    if_neg (hne '"' (by decide)), if_neg (hne '[' (by decide)), if_neg (hne '\x7b' (by decide)),
    if_neg (hne ']' (by decide))]

theorem kindOf_head {t : List Char} (ht : ∀ c ∈ t, numeric c = true) (hne : t ≠ []) :
    ∃ c r, t = c :: r ∧ kindOf c = 2 := by
  obtain ⟨c, r, rfl⟩ := List.exists_cons_of_ne_nil hne
  exact ⟨c, r, rfl, kindOf_numeric (ht c List.mem_cons_self)⟩

theorem chars_head (v : Value) : ∃ c r, v.chars = c :: r ∧ kindOf c = v.kind := by
  cases v with
  | null => exact ⟨_, _, rfl, rfl⟩
  | bool b => cases b <;> exact ⟨_, _, rfl, rfl⟩
  | int n =>
      rw [Value.chars]
      exact kindOf_head numeric_of_mem_int (toString_int_ne_nil n)
  | float x =>
      rw [Value.chars]
      exact kindOf_head x.all_numeric x.text_ne_nil
  | string s => exact ⟨_, _, by rw [Value.chars, toList_quote], rfl⟩
  | array items => exact ⟨_, _, by rw [Value.chars], rfl⟩
  | object members => exact ⟨_, _, by rw [Value.chars], rfl⟩

theorem kind_eq {v w : Value} {r s : List Char} (h : v.chars ++ r = w.chars ++ s) :
    v.kind = w.kind := by
  obtain ⟨c, t, hv, hc⟩ := chars_head v
  obtain ⟨d, u, hw, hd⟩ := chars_head w
  rw [hv, hw] at h
  rw [← hc, ← hd, (List.cons.inj h).1]

theorem chars_append_ne (v : Value) (r s : List Char) : v.chars ++ r ≠ ']' :: s := by
  intro h
  obtain ⟨c, t, hv, hc⟩ := chars_head v
  rw [hv] at h
  obtain ⟨rfl, -⟩ := List.cons.inj h
  cases v <;> cases hc

def Separator (separator : List Char) : Prop := separator = [] ∨ separator = [',']

theorem itemsChars_ends (vs : List Value) (r : List Char) : Ends (itemsChars [','] vs ++ r) := by
  cases vs with
  | nil => exact ends_cons (by decide) _
  | cons v vs => exact ends_cons (by decide) _

theorem membersChars_ends (ms : List (String × Value)) (r : List Char) :
    Ends (membersChars [','] ms ++ r) := by
  cases ms with
  | nil => exact ends_cons (by decide) _
  | cons m ms => exact ends_cons (by decide) _

theorem itemsChars_cons_ne {separator : List Char} (hsep : Separator separator) (v : Value)
    (vs : List Value) (r s : List Char) : itemsChars separator (v :: vs) ++ r ≠ ']' :: s := by
  rw [itemsChars, List.append_assoc, List.append_assoc]
  rcases hsep with rfl | rfl
  · exact chars_append_ne v _ s
  · intro h
    exact absurd (List.cons.inj h).1 (by decide)

theorem membersChars_cons_ne {separator : List Char} (hsep : Separator separator)
    (m : String × Value) (ms : List (String × Value)) (r s : List Char) :
    membersChars separator (m :: ms) ++ r ≠ '\x7d' :: s := by
  rw [membersChars, toList_quote]
  rcases hsep with rfl | rfl <;>
  · intro h
    exact absurd (List.cons.inj h).1 (by decide)

mutual

/-- A value shows where it ends. -/
theorem chars_unique : ∀ (v w : Value) {r s : List Char}, Ends r → Ends s →
    v.chars ++ r = w.chars ++ s → v = w ∧ r = s
  | .null, w, r, s, _, _, h => by
      have hk := kind_eq h
      cases w with
      | null => exact ⟨rfl, List.append_cancel_left h⟩
      | _ => cases hk
  | .bool b, w, r, s, _, _, h => by
      have hk := kind_eq h
      cases w with
      | bool c =>
          have hbc : b = c := by
            cases b <;> cases c <;> first | rfl | exact absurd (List.cons.inj h).1 (by decide)
          subst hbc
          exact ⟨rfl, List.append_cancel_left h⟩
      | _ => cases hk
  | .int n, w, r, s, hr, hs, h => by
      have hk := kind_eq h
      cases w with
      | int m =>
          rw [Value.chars, Value.chars] at h
          obtain ⟨ht, rfl⟩ := numeral_unique numeric_of_mem_int numeric_of_mem_int hr hs h
          rw [Int.toString_eq_repr, Int.toString_eq_repr] at ht
          exact ⟨congrArg Value.int (Int.repr_injective (String.toList_inj.mp ht)), rfl⟩
      | float x =>
          rw [Value.chars, Value.chars] at h
          exact absurd (numeral_unique numeric_of_mem_int x.all_numeric hr hs h).1
            (int_text_ne_float n x)
      | _ => cases hk
  | .float x, w, r, s, hr, hs, h => by
      have hk := kind_eq h
      cases w with
      | int n =>
          rw [Value.chars, Value.chars] at h
          exact absurd (numeral_unique x.all_numeric numeric_of_mem_int hr hs h).1.symm
            (int_text_ne_float n x)
      | float y =>
          rw [Value.chars, Value.chars] at h
          obtain ⟨ht, rfl⟩ := numeral_unique x.all_numeric y.all_numeric hr hs h
          exact ⟨congrArg Value.float (FloatLiteral.ext ht), rfl⟩
      | _ => cases hk
  | .string x, w, r, s, _, _, h => by
      have hk := kind_eq h
      cases w with
      | string y =>
          rw [Value.chars, Value.chars] at h
          obtain ⟨rfl, rfl⟩ := quote_unique h
          exact ⟨rfl, rfl⟩
      | _ => cases hk
  | .array vs, w, r, s, _, _, h => by
      have hk := kind_eq h
      cases w with
      | array ws =>
          rw [Value.chars, Value.chars] at h
          obtain ⟨rfl, rfl⟩ := itemsChars_unique vs ws (.inl rfl) (List.cons.inj h).2
          exact ⟨rfl, rfl⟩
      | _ => cases hk
  | .object ms, w, r, s, _, _, h => by
      have hk := kind_eq h
      cases w with
      | object ns =>
          rw [Value.chars, Value.chars] at h
          obtain ⟨rfl, rfl⟩ := membersChars_unique ms ns (.inl rfl) (List.cons.inj h).2
          exact ⟨rfl, rfl⟩
      | _ => cases hk

theorem itemsChars_unique : ∀ (vs ws : List Value) {separator r s : List Char},
    Separator separator → itemsChars separator vs ++ r = itemsChars separator ws ++ s →
      vs = ws ∧ r = s
  | [], [], separator, r, s, _, h => ⟨rfl, (List.cons.inj h).2⟩
  | [], w :: ws, separator, r, s, hsep, h => absurd h.symm (itemsChars_cons_ne hsep w ws s r)
  | v :: vs, [], separator, r, s, hsep, h => absurd h (itemsChars_cons_ne hsep v vs r s)
  | v :: vs, w :: ws, separator, r, s, _, h => by
      simp only [itemsChars, List.append_assoc] at h
      obtain ⟨rfl, hrest⟩ := chars_unique v w (itemsChars_ends vs r) (itemsChars_ends ws s)
        (List.append_cancel_left h)
      obtain ⟨rfl, rfl⟩ := itemsChars_unique vs ws (.inr rfl) hrest
      exact ⟨rfl, rfl⟩

theorem membersChars_unique : ∀ (ms ns : List (String × Value)) {separator r s : List Char},
    Separator separator → membersChars separator ms ++ r = membersChars separator ns ++ s →
      ms = ns ∧ r = s
  | [], [], separator, r, s, _, h => ⟨rfl, (List.cons.inj h).2⟩
  | [], n :: ns, separator, r, s, hsep, h => absurd h.symm (membersChars_cons_ne hsep n ns s r)
  | m :: ms, [], separator, r, s, hsep, h => absurd h (membersChars_cons_ne hsep m ms r s)
  | (key, v) :: ms, (key', w) :: ns, separator, r, s, _, h => by
      simp only [membersChars, List.append_assoc, List.cons_append] at h
      obtain ⟨rfl, hvalue⟩ := quote_unique (List.append_cancel_left h)
      obtain ⟨rfl, hrest⟩ := chars_unique v w (membersChars_ends ms r) (membersChars_ends ns s)
        (List.cons.inj hvalue).2
      obtain ⟨rfl, rfl⟩ := membersChars_unique ms ns (.inr rfl) hrest
      exact ⟨rfl, rfl⟩

end

/-- The text determines the value. -/
theorem text_injective : Function.Injective Value.text := by
  intro v w h
  have hchars : v.chars = w.chars := String.ofList_injective h
  have hends : Ends [] := fun _ _ hnil => by cases hnil
  have hv : v.chars ++ [] = w.chars ++ [] := by rw [hchars]
  exact (chars_unique v w hends hends hv).1

end Unique

section Written

mutual

/-- The texts in a value: its strings, and the names of its members. -/
def Value.texts : Value → List String
  | .string s => [s]
  | .array items => itemsTexts items
  | .object members => membersTexts members
  | _ => []

def itemsTexts : List Value → List String
  | [] => []
  | v :: vs => v.texts ++ itemsTexts vs

def membersTexts : List (String × Value) → List String
  | [] => []
  | (key, v) :: ms => key :: (v.texts ++ membersTexts ms)

end

def Escapes (P : Char → Prop) (s : String) : Prop := ∀ c ∈ s.toList.flatMap escape, P c

/-- The visible characters of ASCII are among them. -/
def Visible (P : Char → Prop) : Prop := ∀ c, 32 ≤ c.toNat → c.toNat < 127 → P c

variable {P : Char → Prop}

theorem Visible.all (hv : Visible P) {cs : List Char}
    (h : cs.all (fun c => 32 ≤ c.toNat ∧ c.toNat < 127) = true) : ∀ c ∈ cs, P c := by
  intro c hc
  obtain ⟨hlow, hhigh⟩ := of_decide_eq_true (List.all_eq_true.mp h c hc)
  exact hv c hlow hhigh

theorem Visible.numeric (hv : Visible P) {c : Char} (h : numeric c = true) : P c := by
  simp only [Json.numeric, Bool.or_eq_true, decide_eq_true_eq] at h
  rcases h with ((((h | rfl) | rfl) | rfl) | rfl) | rfl
  · obtain ⟨hlow, hhigh⟩ := Char.isDigit_iff_toNat.mp h
    exact hv c (Nat.le_trans (by decide) hlow) (Nat.lt_of_le_of_lt hhigh (by decide))
  all_goals exact hv _ (by decide) (by decide)

theorem Visible.quote (hv : Visible P) {s : String} (hs : Escapes P s) :
    ∀ c ∈ (quote s).toList, P c := by
  rw [toList_quote, List.forall_mem_cons, List.forall_mem_append]
  exact ⟨hv _ (by decide) (by decide), hs, hv.all (by decide)⟩

mutual

theorem Visible.chars (hv : Visible P) : ∀ v : Value, (∀ s ∈ v.texts, Escapes P s) →
    ∀ c ∈ v.chars, P c
  | .null, _ => hv.all (by decide)
  | .bool true, _ => hv.all (by decide)
  | .bool false, _ => hv.all (by decide)
  | .int n, _ => fun c hc => hv.numeric (numeric_of_mem_int c (by rwa [Value.chars] at hc))
  | .float x, _ => fun c hc => hv.numeric (x.all_numeric c (by rwa [Value.chars] at hc))
  | .string s, h => by
      rw [Value.texts] at h
      rw [Value.chars]
      exact hv.quote (List.forall_mem_singleton.mp h)
  | .array items, h => by
      rw [Value.texts] at h
      rw [Value.chars, List.forall_mem_cons]
      exact ⟨hv _ (by decide) (by decide), hv.items items h (by simp)⟩
  | .object members, h => by
      rw [Value.texts] at h
      rw [Value.chars, List.forall_mem_cons]
      exact ⟨hv _ (by decide) (by decide), hv.members members h (by simp)⟩

theorem Visible.items (hv : Visible P) : ∀ (items : List Value) {separator : List Char},
    (∀ s ∈ itemsTexts items, Escapes P s) → (∀ c ∈ separator, P c) →
      ∀ c ∈ itemsChars separator items, P c
  | [], _, _, _ => by
      rw [itemsChars]
      exact hv.all (by decide)
  | v :: vs, separator, h, hs => by
      rw [itemsTexts, List.forall_mem_append] at h
      rw [itemsChars, List.forall_mem_append, List.forall_mem_append]
      exact ⟨hs, hv.chars v h.1, hv.items vs h.2 (hv.all (by decide))⟩

theorem Visible.members (hv : Visible P) : ∀ (members : List (String × Value))
    {separator : List Char}, (∀ s ∈ membersTexts members, Escapes P s) → (∀ c ∈ separator, P c) →
      ∀ c ∈ membersChars separator members, P c
  | [], _, _, _ => by
      rw [membersChars]
      exact hv.all (by decide)
  | (key, v) :: ms, separator, h, hs => by
      rw [membersTexts, List.forall_mem_cons, List.forall_mem_append] at h
      rw [membersChars, List.forall_mem_append, List.forall_mem_append, List.forall_mem_cons,
        List.forall_mem_append]
      exact ⟨hs, hv.quote h.1, hv _ (by decide) (by decide), hv.chars v h.2.1,
        hv.members ms h.2.2 (hv.all (by decide))⟩

end

def Printable (c : Char) : Prop := 32 ≤ c.toNat

instance (c : Char) : Decidable (Printable c) := Nat.decLe 32 c.toNat

theorem hexDigit_printable : ∀ n < 16, 32 ≤ (hexDigit n).toNat := by decide

theorem escape_printable (c : Char) : ∀ d ∈ escape c, Printable d := by
  have hv : Visible Printable := fun c h _ => h
  rw [escape]
  split_ifs with hq hs hn hr ht hb hf hlt
  · exact hv.all (by decide)
  · exact hv.all (by decide)
  · exact hv.all (by decide)
  · exact hv.all (by decide)
  · exact hv.all (by decide)
  · exact hv.all (by decide)
  · exact hv.all (by decide)
  · simp only [List.forall_mem_cons]
    exact ⟨by decide, by decide, by decide, by decide, hexDigit_printable _ (by omega),
      hexDigit_printable _ (by omega), by simp⟩
  · exact List.forall_mem_singleton.mpr (Nat.not_lt.mp hlt)

/-- The text of a value has no control character in it. -/
theorem chars_printable (v : Value) : ∀ c ∈ v.chars, Printable c := by
  refine Visible.chars (fun c h _ => h) v (fun s _ c hc => ?_)
  obtain ⟨d, -, hd⟩ := List.mem_flatMap.mp hc
  exact escape_printable d c hd

theorem chars_visible {v : Value} (h : ∀ s ∈ v.texts, ∀ c ∈ s.toList, 32 ≤ c.toNat ∧ c.toNat < 127) :
    ∀ c ∈ v.chars, 32 ≤ c.toNat ∧ c.toNat < 127 := by
  have hv : Visible (fun c => 32 ≤ c.toNat ∧ c.toNat < 127) := fun c hlow hhigh => ⟨hlow, hhigh⟩
  refine hv.chars v (fun s hs c hc => ?_)
  obtain ⟨d, hd, hc⟩ := List.mem_flatMap.mp hc
  obtain ⟨hlow, hhigh⟩ := h s hs d hd
  have hn (k : Char) (hk : k.toNat < 32) : d ≠ k := by
    rintro rfl
    omega
  have hb : ¬ d.toNat = 8 := by omega
  have hf : ¬ d.toNat = 12 := by omega
  have hcontrol : ¬ d.toNat < 32 := by omega
  rw [escape, if_neg (hn '\n' (by decide)), if_neg (hn '\r' (by decide)),
    if_neg (hn '\t' (by decide)), if_neg hb, if_neg hf, if_neg hcontrol] at hc
  split_ifs at hc
  · exact hv.all (by decide) c hc
  · exact hv.all (by decide) c hc
  · exact List.mem_singleton.mp hc ▸ ⟨hlow, hhigh⟩

end Written

end AiterCommerce.Encoding.Json
