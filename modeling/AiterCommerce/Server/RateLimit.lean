import AiterCommerce.Server.Auth
import AiterCommerce.Throttle.FixedWindow

namespace AiterCommerce.Server

open AiterCommerce.Core Throttle

def defaultWritesPerMin : UInt32 := 60

def defaultReadsPerMin : UInt32 := 120

def windowSecs : UInt64 := 60

structure Window where
  start : UInt64
  hits : UInt32
  deriving DecidableEq

structure RateLimiter where
  windows : InMemoryStore String Window
  limit : UInt32

/-- The plain sums of the window's end and of the counter wrap. -/
def Window.hit (now : UInt64) (entry : Option Window) : Window :=
  let entry := entry.getD ⟨now, 0⟩
  let entry := if entry.start + windowSecs ≤ now then ⟨now, 0⟩ else entry
  { entry with hits := entry.hits + 1 }

theorem Window.hit_none (now : UInt64) : Window.hit now none = ⟨now, 1⟩ := by
  simp only [Window.hit, Option.getD_none]
  split <;> rfl

theorem Window.hit_expired {w : Window} {now : UInt64} (h : w.start + windowSecs ≤ now) :
    Window.hit now (some w) = ⟨now, 1⟩ := by
  rw [Window.hit, Option.getD_some, if_pos h]
  rfl

theorem Window.hit_open {w : Window} {now : UInt64} (h : ¬ w.start + windowSecs ≤ now) :
    Window.hit now (some w) = ⟨w.start, w.hits + 1⟩ := by
  rw [Window.hit, Option.getD_some, if_neg h]

namespace RateLimiter

def new (limit : UInt32) : RateLimiter := ⟨.new, limit⟩

def check (limiter : RateLimiter) (key : String) (now : UInt64) : Bool × RateLimiter :=
  let entry := Window.hit now (limiter.windows.get key)
  (entry.hits ≤ limiter.limit, { limiter with windows := limiter.windows.insert key entry })

def Used (limiter : RateLimiter) (key : String) (n : Nat) : Prop :=
  ∀ w, limiter.windows.get key = some w → w.hits.toNat ≤ n

theorem used_new (limit : UInt32) (key : String) : (new limit).Used key 0 := by
  intro w h
  cases h

/-- A hit is admitted as long as the quota is not used up, and uses up one of it. -/
theorem check_of_used {limiter : RateLimiter} {key : String} {n : Nat} (h : limiter.Used key n)
    (hlt : n < limiter.limit.toNat) (now : UInt64) :
    (limiter.check key now).1 = true ∧ (limiter.check key now).2.limit = limiter.limit ∧
      (limiter.check key now).2.Used key (n + 1) := by
  have hlimit := limiter.limit.toNat_lt
  have hhits : (Window.hit now (limiter.windows.get key)).hits.toNat ≤ n + 1 := by
    cases hw : limiter.windows.get key with
    | none =>
        rw [Window.hit_none]
        exact Nat.le_add_left 1 n
    | some w =>
        have hn := h w hw
        by_cases hexp : w.start + windowSecs ≤ now
        · rw [Window.hit_expired hexp]
          exact Nat.le_add_left 1 n
        · rw [Window.hit_open hexp]
          dsimp only
          rw [UInt32.toNat_add, show (1 : UInt32).toNat = 1 from rfl]
          omega
  refine ⟨?_, rfl, ?_⟩
  · apply decide_eq_true
    rw [UInt32.le_iff_toNat_le]
    omega
  · intro w hw
    rw [check, InMemoryStore.get_insert_self] at hw
    cases hw
    exact hhits

end RateLimiter

/-- The text before the first comma of the header, trimmed. -/
def firstForwarded (headers : HeaderMap) : Option String :=
  ((headers.get "x-forwarded-for").bind toStr).map
    (fun v => String.ofList (trim (v.toList.takeWhile (· ≠ ','))))

/-- Who a read is counted for: the address of the peer, when the connection is
known, before anything the request says. -/
def clientKey (peer : Option String) (headers : HeaderMap) : String :=
  match peer with
  | some ip => ip
  | none =>
      match firstForwarded headers with
      | some ip => if ip = "" then "local" else ip
      | none => "local"

def writeKey (agentId : String) : String := "w:" ++ agentId

def readKey (peer : Option String) (headers : HeaderMap) : String := "r:" ++ clientKey peer headers

def rateLimited : HttpError := ⟨429, "rate limit exceeded"⟩

def limitReads (limiter : RateLimiter) (peer : Option String) (headers : HeaderMap) (now : UInt64) :
    Except HttpError Unit × RateLimiter :=
  let (admitted, limiter) := limiter.check (readKey peer headers) now
  (if admitted then .ok () else .error rateLimited, limiter)

structure Verdict where
  key : String
  now : UInt64
  admitted : Bool
  deriving DecidableEq

def RateLimiter.run : RateLimiter → List (String × UInt64) → List Verdict
  | _, [] => []
  | limiter, (key, now) :: hits =>
      ⟨key, now, (limiter.check key now).1⟩ :: (limiter.check key now).2.run hits

def Window.run (limit : UInt32) : Option Window → List UInt64 → List (UInt64 × Bool)
  | _, [] => []
  | entry, now :: times =>
      (now, decide ((Window.hit now entry).hits ≤ limit)) ::
        run limit (some (Window.hit now entry)) times

def hitsOf (key : String) (hits : List (String × UInt64)) : List UInt64 :=
  (hits.filter (fun h => h.1 = key)).map Prod.snd

def verdictsOn (key : String) (verdicts : List Verdict) : List (UInt64 × Bool) :=
  (verdicts.filter (fun v => v.key = key)).map (fun v => (v.now, v.admitted))

theorem RateLimiter.verdictsOn_run (limiter : RateLimiter) (hits : List (String × UInt64))
    (key : String) : verdictsOn key (limiter.run hits) =
      Window.run limiter.limit (limiter.windows.get key) (hitsOf key hits) := by
  induction hits generalizing limiter with
  | nil => rfl
  | cons h hits ih =>
      obtain ⟨k, now⟩ := h
      have hrest := ih (limiter.check k now).2
      simp only [check, InMemoryStore.get_insert] at hrest
      by_cases hk : k = key
      · subst hk
        simp only [if_true] at hrest
        simp only [run, verdictsOn, hitsOf, List.filter_cons, decide_true, if_true, List.map_cons,
          Window.run, check, List.cons.injEq, true_and]
        exact hrest
      · simp only [if_neg (Ne.symm hk)] at hrest
        simp only [run, verdictsOn, hitsOf, List.filter_cons, hk, decide_false,
          Bool.false_eq_true, if_false]
        exact hrest

end AiterCommerce.Server
