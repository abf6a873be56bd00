import AiterCommerce.Server.Razorpay
import Mathlib.Data.Finmap

namespace AiterCommerce.Server

def defaultPort : UInt16 := 8080

structure RazorpaySettings where
  keyId : Option String
  keySecret : Option String
  mode : Option String
  baseUrl : Option String
  webhookSecret : Option String
  deriving DecidableEq

def RazorpaySettings.toRazorpayConfig (settings : RazorpaySettings) :
    Except RazorpayError RazorpayConfig := do
  let keyId ← settings.keyId.elim (.error (.config "RAZORPAY_KEY_ID is required")) .ok
  let keySecret ← settings.keySecret.elim (.error (.config "RAZORPAY_KEY_SECRET is required")) .ok
  let mode ← settings.mode.elim (.ok .sandbox) RazorpayMode.fromEnv
  let baseUrl := settings.baseUrl.getD defaultBaseUrl
  return { keyId, keySecret, mode, baseUrl, webhookSecret := settings.webhookSecret }

structure Config where
  configPath : String
  fileLoaded : Bool
  port : UInt16
  razorpay : RazorpaySettings
  deriving DecidableEq

inductive FileError
  | notFound
  | other (message : String)
  deriving DecidableEq

inductive ConfigError
  | io (path message : String)
  | malformedLine (path : String) (line : Nat)
  | invalidPort (path value : String)
  deriving DecidableEq

def isWhitespace (c : Char) : Bool :=
  let n := c.toNat
  (9 ≤ n && n ≤ 13) || n == 0x20 || n == 0x85 || n == 0xA0 || n == 0x1680 ||
    (0x2000 ≤ n && n ≤ 0x200A) || n == 0x2028 || n == 0x2029 || n == 0x202F || n == 0x205F ||
    n == 0x3000

def trim (cs : List Char) : List Char := (cs.dropWhile isWhitespace).rdropWhile isWhitespace

/-- A line ends in a line feed, with or without a carriage return before it. -/
def stripReturn (line : List Char) : List Char :=
  if line.getLast? = some '\r' then line.dropLast else line

def linesFrom (line : List Char) : List Char → List (List Char)
  | [] => if line = [] then [] else [line]
  | c :: cs =>
      if c = '\n' then stripReturn line :: linesFrom [] cs else linesFrom (line ++ [c]) cs

def lines (contents : String) : List (List Char) := linesFrom [] contents.toList

def splitOnce (sep : Char) : List Char → Option (List Char × List Char)
  | [] => none
  | c :: cs =>
      if c = sep then some ([], cs)
      else (splitOnce sep cs).map (fun (key, value) => (c :: key, value))

abbrev FileMap := Finmap (fun _ : String => String)

def parseLine (path : String) (map : FileMap) (index : Nat) (rawLine : List Char) :
    Except ConfigError FileMap :=
  let line := trim rawLine
  if line = [] ∨ line.head? = some '#' then .ok map
  else match splitOnce '=' line with
    | none => .error (.malformedLine path (index + 1))
    | some (key, value) =>
        let key := trim key
        let value := trim value
        if key = [] ∨ value = [] then .ok map
        else .ok (map.insert (String.ofList key) (String.ofList value))

def parseLines (path : String) (map : FileMap) (index : Nat) :
    List (List Char) → Except ConfigError FileMap
  | [] => .ok map
  | line :: rest => do parseLines path (← parseLine path map index line) (index + 1) rest

def parseFile (path contents : String) : Except ConfigError FileMap :=
  parseLines path ∅ 0 (lines contents)

/-- The environment wins over the file. -/
def resolve (env : String → Option String) (file : FileMap) (key : String) : Option String :=
  (env key).or (file.lookup key)

def digitValue (c : Char) : Option Nat :=
  if '0' ≤ c ∧ c ≤ '9' then some (c.toNat - 48) else none

def parseDigits (limit : Nat) : Nat → List Char → Option Nat
  | n, [] => some n
  | n, c :: cs => do
      let d ← digitValue c
      if n * 10 + d < limit then parseDigits limit (n * 10 + d) cs else none

/-- A decimal number of 16 bits, with an optional plus sign. -/
def parseU16 (raw : String) : Option UInt16 :=
  let digits := match raw.toList with
    | '+' :: cs => cs
    | cs => cs
  if digits = [] then none else (parseDigits UInt16.size 0 digits).map UInt16.ofNat

/-- A bad port in the environment falls back; a bad port in the file is an error. -/
def resolvePort (env : String → Option String) (file : FileMap) (path : String) :
    Except ConfigError UInt16 :=
  match env "PORT" with
  | some raw => .ok ((parseU16 raw).getD defaultPort)
  | none =>
      match file.lookup "PORT" with
      | some raw =>
          match parseU16 raw with
          | some port => .ok port
          | none => .error (.invalidPort path raw)
      | none => .ok defaultPort

/-- A missing file is no file layer, never an error. -/
def fileLayer (path : String) : Except FileError String → Except ConfigError (Bool × FileMap)
  | .ok contents => (parseFile path contents).map (fun file => (true, file))
  | .error .notFound => .ok (false, ∅)
  | .error (.other message) => .error (.io path message)

def loadFromWith (path : String) (read : Except FileError String) (env : String → Option String) :
    Except ConfigError Config := do
  let (fileLoaded, file) ← fileLayer path read
  let port ← resolvePort env file path
  let razorpay := {
    keyId := resolve env file "RAZORPAY_KEY_ID"
    keySecret := resolve env file "RAZORPAY_KEY_SECRET"
    mode := resolve env file "RAZORPAY_MODE"
    baseUrl := resolve env file "RAZORPAY_BASE_URL"
    webhookSecret := resolve env file "RAZORPAY_WEBHOOK_SECRET" }
  return { configPath := path, fileLoaded, port, razorpay }

def load (path : String) (read : Except FileError String) (env : Env) :
    Except ConfigError Config :=
  loadFromWith path read (fun key => (env key).toOption)

theorem RazorpaySettings.toRazorpayConfig_webhookSecret {settings : RazorpaySettings}
    {config : RazorpayConfig} (h : settings.toRazorpayConfig = .ok config) :
    config.webhookSecret = settings.webhookSecret := by
  simp only [toRazorpayConfig, bind, Except.bind, pure, Except.pure] at h
  repeat' split at h
  all_goals cases h
  rfl

def NonemptyValues (map : FileMap) : Prop := ∀ key value, map.lookup key = some value → value ≠ ""

theorem parseLine_nonempty {path : String} {map next : FileMap} {index : Nat} {line : List Char}
    (h : parseLine path map index line = .ok next) (hm : NonemptyValues map) :
    NonemptyValues next := by
  simp only [parseLine] at h
  split at h
  · cases h; exact hm
  · split at h
    · cases h
    next k v hs =>
      split at h
      · cases h; exact hm
      next hne =>
        cases h
        intro key value hkv
        rw [not_or] at hne
        rcases Decidable.em (key = String.ofList (trim k)) with rfl | hk
        · rw [Finmap.lookup_insert] at hkv
          cases hkv
          simpa using hne.2
        · rw [Finmap.lookup_insert_of_ne _ hk] at hkv
          exact hm key value hkv

theorem parseLines_nonempty {path : String} {map file : FileMap} {index : Nat}
    {rest : List (List Char)} (h : parseLines path map index rest = .ok file)
    (hm : NonemptyValues map) : NonemptyValues file := by
  induction rest generalizing map index with
  | nil => cases h; exact hm
  | cons line rest ih =>
      simp only [parseLines, bind, Except.bind] at h
      split at h
      · cases h
      next next hn => exact ih h (parseLine_nonempty hn hm)

theorem parseFile_nonempty {path contents : String} {file : FileMap}
    (h : parseFile path contents = .ok file) : NonemptyValues file :=
  parseLines_nonempty h (by intro key value hkv; simp at hkv)

theorem fileLayer_nonempty {path : String} {read : Except FileError String} {loaded : Bool}
    {file : FileMap} (h : fileLayer path read = .ok (loaded, file)) : NonemptyValues file := by
  rw [fileLayer.eq_def] at h
  split at h
  next contents =>
    cases hp : parseFile path contents with
    | error e => simp [hp, Except.map] at h
    | ok parsed =>
        simp only [hp, Except.map, Except.ok.injEq, Prod.mk.injEq] at h
        exact h.2 ▸ parseFile_nonempty hp
  next => cases h; intro key value hkv; simp at hkv
  next => cases h

theorem loadFromWith_webhookSecret {path : String} {read : Except FileError String}
    {env : String → Option String} {config : Config}
    (h : loadFromWith path read env = .ok config) :
    ∃ loaded file, fileLayer path read = .ok (loaded, file) ∧
      config.razorpay.webhookSecret = resolve env file "RAZORPAY_WEBHOOK_SECRET" := by
  simp only [loadFromWith, bind, Except.bind, pure, Except.pure] at h
  split at h
  · cases h
  next layer hl =>
    obtain ⟨loaded, file⟩ := layer
    split at h
    · cases h
    · cases h
      exact ⟨loaded, file, hl, rfl⟩

end AiterCommerce.Server
