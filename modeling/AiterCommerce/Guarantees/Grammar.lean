import AiterCommerce.Server.Config

namespace AiterCommerce.Guarantees.Grammar

open AiterCommerce.Server Machine

def Significant (line : List Char) : Prop := trim line ≠ [] ∧ (trim line).head? ≠ some '#'

instance (line : List Char) : Decidable (Significant line) := inferInstanceAs (Decidable (_ ∧ _))

def Malformed (line : List Char) : Prop := Significant line ∧ '=' ∉ trim line

instance (line : List Char) : Decidable (Malformed line) := inferInstanceAs (Decidable (_ ∧ _))

def assignment (line : List Char) : Option (String × String) :=
  if Significant line ∧ '=' ∈ trim line then
    some (String.ofList (trim ((trim line).takeWhile (· ≠ '='))),
      String.ofList (trim ((trim line).dropWhile (· ≠ '=')).tail))
  else none

/-- The values assigned to a key, from the first line to the last. -/
def valuesOf (key : String) (lines : List (List Char)) : List String :=
  ((lines.filterMap assignment).filter (fun a => a.1 = key)).map Prod.snd

def fileValue (key : String) (lines : List (List Char)) : Option String :=
  ((valuesOf key lines).filter (fun value => value ≠ "")).getLast?

section Line

variable {path : String} {map : FileMap} {index : Nat} {line : List Char}

theorem splitOnce_eq (sep : Char) (cs : List Char) :
    splitOnce sep cs = if sep ∈ cs then
      some (cs.takeWhile (· ≠ sep), (cs.dropWhile (· ≠ sep)).tail) else none := by
  induction cs with
  | nil => rfl
  | cons c cs ih =>
      rw [splitOnce]
      by_cases hc : c = sep
      · subst hc
        simp
      · rw [if_neg hc, ih]
        have hne : sep ≠ c := Ne.symm hc
        by_cases hmem : sep ∈ cs
        · simp [hmem, hc]
        · simp [hmem, hne]

def store (map : FileMap) (line : List Char) : FileMap :=
  match assignment line with
  | some (key, value) => if key = "" ∨ value = "" then map else map.insert key value
  | none => map

theorem ofList_eq_empty {cs : List Char} : String.ofList cs = "" ↔ cs = [] := by
  rw [← String.ofList_nil, String.ofList_inj]

theorem parseLine_eq : parseLine path map index line =
    if Malformed line then .error (.malformedLine path (index + 1)) else .ok (store map line) := by
  simp only [parseLine, store, assignment, splitOnce_eq, Malformed]
  by_cases hsig : Significant line
  · have hno : ¬ (trim line = [] ∨ (trim line).head? = some '#') := not_or.mpr hsig
    rw [if_neg hno]
    by_cases heq : '=' ∈ trim line
    · simp only [hsig, heq, if_true, and_self, not_true_eq_false, and_false, if_false,
        ofList_eq_empty]
      split <;> rfl
    · simp only [hsig, heq, if_false, and_false, not_false_eq_true, and_self, if_true]
  · have hyes : trim line = [] ∨ (trim line).head? = some '#' := by
      rw [Significant, ← not_or, not_not] at hsig
      exact hsig
    simp only [hsig, hyes, if_true, false_and, if_false]

end Line

section Lines

variable {path : String} {map : FileMap} {index : Nat} {lines : List (List Char)} {key : String}

theorem parseLines_ok (h : ∀ line ∈ lines, ¬ Malformed line) :
    parseLines path map index lines = .ok (lines.foldl store map) := by
  induction lines generalizing map index with
  | nil => rfl
  | cons line lines ih =>
      obtain ⟨hline, hrest⟩ := List.forall_mem_cons.mp h
      rw [parseLines, parseLine_eq, if_neg hline]
      exact ih hrest

theorem parseLines_error {before after : List (List Char)} {line : List Char}
    (hbefore : ∀ l ∈ before, ¬ Malformed l) (hline : Malformed line) :
    parseLines path map index (before ++ line :: after) =
      .error (.malformedLine path (index + before.length + 1)) := by
  induction before generalizing map index with
  | nil =>
      rw [List.nil_append, parseLines, parseLine_eq, if_pos hline]
      rfl
  | cons first before ih =>
      obtain ⟨hfirst, hrest⟩ := List.forall_mem_cons.mp hbefore
      rw [List.cons_append, parseLines, parseLine_eq, if_neg hfirst, List.length_cons,
        Nat.add_comm before.length 1, ← Nat.add_assoc]
      exact ih hrest

theorem exists_first_malformed (h : ∃ line ∈ lines, Malformed line) :
    ∃ before line after, lines = before ++ line :: after ∧ (∀ l ∈ before, ¬ Malformed l) ∧
      Malformed line := by
  induction lines with
  | nil =>
      obtain ⟨line, hmem, -⟩ := h
      cases hmem
  | cons first lines ih =>
      by_cases hfirst : Malformed first
      · exact ⟨[], first, lines, rfl, by simp, hfirst⟩
      · have hrest : ∃ line ∈ lines, Malformed line := by
          obtain ⟨line, hmem, hline⟩ := h
          rcases List.mem_cons.mp hmem with rfl | hmem
          · exact absurd hline hfirst
          · exact ⟨line, hmem, hline⟩
        obtain ⟨before, line, after, rfl, hbefore, hline⟩ := ih hrest
        exact ⟨first :: before, line, after, rfl, List.forall_mem_cons.mpr ⟨hfirst, hbefore⟩, hline⟩

theorem valuesOf_cons (line : List Char) : valuesOf key (line :: lines) =
    valuesOf key [line] ++ valuesOf key lines := by
  rw [valuesOf, valuesOf, valuesOf, ← List.map_append, ← List.filter_append,
    ← List.filterMap_append]
  rfl

theorem fileValue_cons (line : List Char) : fileValue key (line :: lines) =
    (fileValue key lines).or (fileValue key [line]) := by
  rw [fileValue, valuesOf_cons, List.filter_append, List.getLast?_append]
  rfl

theorem lookup_store (hkey : key ≠ "") (map : FileMap) (line : List Char) :
    (store map line).lookup key = (fileValue key [line]).or (map.lookup key) := by
  rw [store, fileValue, valuesOf, List.filterMap_cons]
  cases assignment line with
  | none => rfl
  | some a =>
      obtain ⟨k, v⟩ := a
      by_cases hk : k = key
      · subst hk
        by_cases hv : v = ""
        · simp [hv]
        · simp [hv, hkey]
      · have hne : key ≠ k := Ne.symm hk
        simp only [List.filterMap_nil, List.filter_cons, hk, decide_false, Bool.false_eq_true,
          if_false, List.filter_nil, List.map_nil, List.getLast?_nil, Option.none_or]
        split
        · rfl
        · exact Finmap.lookup_insert_of_ne _ hne

theorem lookup_foldl_store (hkey : key ≠ "") : (lines.foldl store map).lookup key =
    (fileValue key lines).or (map.lookup key) := by
  induction lines generalizing map with
  | nil => rfl
  | cons line lines ih =>
      rw [List.foldl_cons, ih, fileValue_cons, lookup_store hkey, Option.or_assoc]

theorem lookup_foldl_store_empty : (lines.foldl store map).lookup "" = map.lookup "" := by
  induction lines generalizing map with
  | nil => rfl
  | cons line lines ih =>
      rw [List.foldl_cons, ih, store]
      split
      next k v h =>
        split
        next => rfl
        next hne => exact Finmap.lookup_insert_of_ne _ (Ne.symm (not_or.mp hne).1)
      next => rfl

end Lines

/-- The first malformed line of a text, counted from one. -/
def FirstMalformed (contents : String) (number : Nat) : Prop :=
  ∃ before line after, lines contents = before ++ line :: after ∧
    (∀ l ∈ before, ¬ Malformed l) ∧ Malformed line ∧ number = before.length + 1

section File

variable {path contents : String} {file : FileMap}

theorem parseFile_ok (h : ∀ line ∈ lines contents, ¬ Malformed line) :
    parseFile path contents = .ok ((lines contents).foldl store ∅) := parseLines_ok h

theorem parseFile_error {number : Nat} (h : FirstMalformed contents number) :
    parseFile path contents = .error (.malformedLine path number) := by
  obtain ⟨before, line, after, hl, hbefore, hline, rfl⟩ := h
  rw [parseFile, hl, parseLines_error hbefore hline, Nat.zero_add]

theorem parseFile_cases (path contents : String) :
    ((∀ line ∈ lines contents, ¬ Malformed line) ∧
        parseFile path contents = .ok ((lines contents).foldl store ∅)) ∨
      ∃ number, FirstMalformed contents number ∧
        parseFile path contents = .error (.malformedLine path number) := by
  by_cases h : ∃ line ∈ lines contents, Malformed line
  · obtain ⟨before, line, after, hl, hbefore, hline⟩ := exists_first_malformed h
    have hfirst : FirstMalformed contents (before.length + 1) :=
      ⟨before, line, after, hl, hbefore, hline, rfl⟩
    exact .inr ⟨_, hfirst, parseFile_error hfirst⟩
  · have hnone : ∀ line ∈ lines contents, ¬ Malformed line :=
      fun line hmem hline => h ⟨line, hmem, hline⟩
    exact .inl ⟨hnone, parseFile_ok hnone⟩

theorem FirstMalformed.exists {number : Nat} (h : FirstMalformed contents number) :
    ∃ line ∈ lines contents, Malformed line := by
  obtain ⟨before, line, after, hl, -, hline, -⟩ := h
  exact ⟨line, by simp [hl], hline⟩

theorem parseFile_error_iff :
    (∃ e, parseFile path contents = .error e) ↔ ∃ line ∈ lines contents, Malformed line := by
  rcases parseFile_cases path contents with ⟨hnone, hok⟩ | ⟨number, hfirst, herr⟩
  · refine iff_of_false ?_ (fun ⟨line, hmem, hline⟩ => hnone line hmem hline)
    rintro ⟨e, he⟩
    rw [hok] at he
    cases he
  · exact iff_of_true ⟨_, herr⟩ hfirst.exists

theorem error_of_parseFile {e : ConfigError} (h : parseFile path contents = .error e) :
    ∃ number, FirstMalformed contents number ∧ e = .malformedLine path number := by
  rcases parseFile_cases path contents with ⟨-, hok⟩ | ⟨number, hfirst, herr⟩
  · rw [hok] at h
    cases h
  · rw [herr] at h
    exact ⟨number, hfirst, (Except.error.inj h).symm⟩

theorem eq_of_parseFile (h : parseFile path contents = .ok file) :
    file = (lines contents).foldl store ∅ := by
  rcases parseFile_cases path contents with ⟨-, hok⟩ | ⟨number, -, herr⟩
  · rw [hok] at h
    exact (Except.ok.inj h).symm
  · rw [herr] at h
    cases h

theorem lookup_of_parseFile (h : parseFile path contents = .ok file) {key : String}
    (hkey : key ≠ "") : file.lookup key = fileValue key (lines contents) := by
  rw [eq_of_parseFile h, lookup_foldl_store hkey, Finmap.lookup_empty, Option.or_none]

theorem lookup_empty_of_parseFile (h : parseFile path contents = .ok file) :
    file.lookup "" = none := by
  rw [eq_of_parseFile h, lookup_foldl_store_empty, Finmap.lookup_empty]

end File

def setting (env : String → Option String) (contents key : String) : Option String :=
  (env key).or (fileValue key (lines contents))

/-- The environment's port alone, or else the file's, or else the default. -/
def portOf (path : String) (env : String → Option String) (contents : String) :
    Except ConfigError UInt16 :=
  match env "PORT" with
  | some raw => .ok ((parseU16 raw).getD 8080)
  | none =>
      match fileValue "PORT" (lines contents) with
      | some raw => (parseU16 raw).elim (.error (.invalidPort path raw)) .ok
      | none => .ok 8080

def configOf (path : String) (env : String → Option String) (contents : String) (port : UInt16) :
    Config where
  configPath := path
  fileLoaded := true
  port := port
  razorpay := {
    keyId := setting env contents "RAZORPAY_KEY_ID"
    keySecret := setting env contents "RAZORPAY_KEY_SECRET"
    mode := setting env contents "RAZORPAY_MODE"
    baseUrl := setting env contents "RAZORPAY_BASE_URL"
    webhookSecret := setting env contents "RAZORPAY_WEBHOOK_SECRET" }

section Load

variable {path contents : String} {env : String → Option String} {file : FileMap}

theorem resolve_of_parseFile (h : parseFile path contents = .ok file) {key : String}
    (hkey : key ≠ "") : resolve env file key = setting env contents key := by
  rw [resolve, lookup_of_parseFile h hkey, setting]

theorem resolvePort_of_parseFile (h : parseFile path contents = .ok file) :
    resolvePort env file path = portOf path env contents := by
  rw [resolvePort, portOf, lookup_of_parseFile h (by decide)]
  cases env "PORT" with
  | some raw => rfl
  | none =>
      cases fileValue "PORT" (lines contents) with
      | none => rfl
      | some raw =>
          dsimp only
          cases parseU16 raw <;> rfl

theorem loadFromWith_ok (h : parseFile path contents = .ok file) :
    loadFromWith path (.ok contents) env =
      (portOf path env contents).map (configOf path env contents) := by
  have hlayer : fileLayer path (.ok contents) = .ok (true, file) := by
    rw [fileLayer, h]
    rfl
  rw [loadFromWith, hlayer]
  simp only [bind, Except.bind, resolvePort_of_parseFile h]
  rw [resolve_of_parseFile h (by decide), resolve_of_parseFile h (by decide),
    resolve_of_parseFile h (by decide), resolve_of_parseFile h (by decide),
    resolve_of_parseFile h (by decide)]
  cases portOf path env contents <;> rfl

theorem loadFromWith_error {e : ConfigError} (h : parseFile path contents = .error e) :
    loadFromWith path (.ok contents) env = .error e := by
  rw [loadFromWith, fileLayer, h]
  rfl

end Load

def SameValues (key contents contents' : String) : Prop :=
  valuesOf key (lines contents) = valuesOf key (lines contents')

theorem lookup_of_sameValues {path path' contents contents' key : String} {file file' : FileMap}
    (h : parseFile path contents = .ok file) (h' : parseFile path' contents' = .ok file')
    (hsame : SameValues key contents contents') : file.lookup key = file'.lookup key := by
  by_cases hkey : key = ""
  · subst hkey
    rw [lookup_empty_of_parseFile h, lookup_empty_of_parseFile h']
  · rw [lookup_of_parseFile h hkey, lookup_of_parseFile h' hkey, fileValue, fileValue, hsame]

/-- A text is refused at its first malformed line and otherwise gives each key the last of
its values that is not empty; the environment comes before the file, and only the
assignments to a key decide what it resolves to. -/
theorem config_grammar (path contents : String) (env : String → Option String) :
    ((∃ e, parseFile path contents = .error e) ↔ ∃ line ∈ lines contents, Malformed line) ∧
    (∀ e, parseFile path contents = .error e →
      (∃ number, FirstMalformed contents number ∧ e = .malformedLine path number) ∧
        loadFromWith path (.ok contents) env = .error e) ∧
    ∀ file, parseFile path contents = .ok file →
      (∀ key, file.lookup key = if key = "" then none else fileValue key (lines contents)) ∧
      loadFromWith path (.ok contents) env =
        (portOf path env contents).map (configOf path env contents) ∧
      ∀ path' contents' file' env', parseFile path' contents' = .ok file' →
        ∀ key, SameValues key contents contents' → env key = env' key →
          resolve env file key = resolve env' file' key ∧
            (key = "PORT" → resolvePort env file path = resolvePort env' file' path) := by
  refine ⟨parseFile_error_iff, fun e he => ⟨error_of_parseFile he, loadFromWith_error he⟩,
    fun file hf => ⟨?_, loadFromWith_ok hf, ?_⟩⟩
  · intro key
    by_cases hkey : key = ""
    · rw [if_pos hkey, hkey]
      exact lookup_empty_of_parseFile hf
    · rw [if_neg hkey]
      exact lookup_of_parseFile hf hkey
  · intro path' contents' file' env' hf' key hsame henv
    have hlookup := lookup_of_sameValues hf hf' hsame
    constructor
    · rw [resolve, resolve, henv, hlookup]
    · rintro rfl
      rw [resolvePort, resolvePort, henv, hlookup]

/-- A line without a key gives the empty key no value. -/
theorem keyless_line_ignored : ¬ ∀ (path contents : String) (file : FileMap),
    parseFile path contents = .ok file →
      ∀ key, file.lookup key = fileValue key (lines contents) := by
  intro h
  have hok : ∀ line ∈ lines "=x", ¬ Malformed line := by decide
  have hlookup := h "aiter.env" "=x" _ (parseFile_ok hok) ""
  rw [lookup_empty_of_parseFile (@parseFile_ok "aiter.env" "=x" hok)] at hlookup
  have hvalue : fileValue "" (lines "=x") = some "x" := by decide
  rw [hvalue] at hlookup
  cases hlookup

end AiterCommerce.Guarantees.Grammar
