import AiterCommerce.Server.RateLimit

namespace AiterCommerce.Guarantees.Quota

open AiterCommerce.Server Throttle

/-- The hits of a key in the windows they fall into: the first hit opens one, and
so does the first that comes a minute or more after the last was opened. -/
def slotsOf (key : String) (hits : List (String × UInt64)) : List Slot :=
  Slot.sequence 60 none ((hitsOf key hits).map UInt64.toNat)

def ClockForward (hits : List (String × UInt64)) : Prop := hits.Pairwise (fun a b => a.2 ≤ b.2)

def admittedIn (key : String) (t : Nat) (verdicts : List Verdict) : List (UInt64 × Bool) :=
  (verdictsOn key verdicts).filter (fun v => v.2 ∧ t ≤ v.1.toNat ∧ v.1.toNat < t + 60)

/-- What the limiter owes: each key is decided by its own hits, the first `limit`
hits of each of its windows are admitted and no others, and so no minute admits
more than twice the limit. -/
structure Fair (limit : UInt32) (hits : List (String × UInt64)) : Prop where
  own : ∀ key hits', hitsOf key hits' = hitsOf key hits →
    verdictsOn key ((RateLimiter.new limit).run hits') =
      verdictsOn key ((RateLimiter.new limit).run hits)
  windows : ∀ key, (verdictsOn key ((RateLimiter.new limit).run hits)).map
      (fun v => (v.1.toNat, v.2)) =
    (slotsOf key hits).map (fun s => (s.time, decide (s.place ≤ limit.toNat)))
  bound : ∀ key t,
    (admittedIn key t ((RateLimiter.new limit).run hits)).length ≤ 2 * limit.toNat

/-- The counter has not wrapped at this hit, and neither has the end of its
window, or the hit is decided in the same way all the same. -/
def InRange (limit : UInt32) (s : Slot) : Prop :=
  (s.start + 60 < 2 ^ 64 ∧ s.place < 2 ^ 32) ∨
    (2 ^ 64 ≤ s.start + 60 ∧ (limit.toNat = 0 ∨ s.place ≤ limit.toNat))

/-- What the code decides: the counter wraps in a window, and a window whose end
wraps is opened anew by each hit. -/
def granted (limit : UInt32) (s : Slot) : Bool :=
  if s.start + 60 < 2 ^ 64 then s.place % 2 ^ 32 ≤ limit.toNat else 1 ≤ limit.toNat

def Tracks (s : Slot) (w : Window) : Prop :=
  (s.start + 60 < 2 ^ 64 ∧ w.start.toNat = s.start ∧ w.hits.toNat = s.place % 2 ^ 32) ∨
    (2 ^ 64 ≤ s.start + 60 ∧ 2 ^ 64 ≤ w.start.toNat + 60 ∧ w.hits = 1)

section Run

variable {limit : UInt32} {s : Slot} {w : Window} {now : UInt64}

theorem expired_iff (h : w.start.toNat + 60 < 2 ^ 64) :
    w.start + windowSecs ≤ now ↔ w.start.toNat + 60 ≤ now.toNat := by
  rw [UInt64.le_iff_toNat_le, UInt64.toNat_add, show windowSecs.toNat = 60 from rfl,
    Nat.mod_eq_of_lt h]

theorem expired_of_wrap (h : 2 ^ 64 ≤ w.start.toNat + 60) (hn : 2 ^ 64 ≤ now.toNat + 60) :
    w.start + windowSecs ≤ now := by
  have hw := w.start.toNat_lt
  rw [UInt64.le_iff_toNat_le, UInt64.toNat_add, show windowSecs.toNat = 60 from rfl]
  omega

theorem tracks_fresh (now : UInt64) : Tracks ⟨now.toNat, now.toNat, 1⟩ ⟨now, 1⟩ := by
  by_cases h : now.toNat + 60 < 2 ^ 64
  · exact .inl ⟨h, rfl, rfl⟩
  · exact .inr ⟨not_lt.mp h, not_lt.mp h, rfl⟩

theorem Tracks.next (h : Tracks s w) (hle : s.start ≤ now.toNat) :
    Tracks (Slot.next 60 now.toNat (some s)) (Window.hit now (some w)) := by
  have hn := now.toNat_lt
  rcases h with ⟨hs, hstart, hhits⟩ | ⟨hs, hstart, hhits⟩
  · have hexp : w.start + windowSecs ≤ now ↔ w.start.toNat + 60 ≤ now.toNat :=
      expired_iff (by omega)
    rw [hstart] at hexp
    rw [Slot.next]
    by_cases he : s.start + 60 ≤ now.toNat
    · rw [if_pos he, Window.hit_expired (hexp.mpr he)]
      exact tracks_fresh now
    · rw [if_neg he, Window.hit_open (fun h => he (hexp.mp h))]
      refine .inl ⟨hs, hstart, ?_⟩
      dsimp only
      rw [UInt32.toNat_add, hhits, show (1 : UInt32).toNat = 1 from rfl]
      omega
  · rw [Slot.next, if_neg (by omega), Window.hit_expired (expired_of_wrap hstart (by omega))]
    exact .inr ⟨hs, by dsimp only; omega, rfl⟩

theorem Tracks.granted (h : Tracks s w) : decide (w.hits ≤ limit) = granted limit s := by
  rw [Quota.granted]
  rcases h with ⟨hs, -, hhits⟩ | ⟨hs, -, hhits⟩
  · rw [if_pos hs, ← hhits]
    exact decide_eq_decide.mpr UInt32.le_iff_toNat_le
  · rw [if_neg (not_lt.mpr hs), hhits]
    exact decide_eq_decide.mpr UInt32.le_iff_toNat_le

theorem next_start_le (hle : s.start ≤ now.toNat) :
    (Slot.next 60 now.toNat (some s)).start ≤ now.toNat := by
  rw [Slot.next]
  split
  · exact le_refl _
  · exact hle

theorem Tracks.run {times : List UInt64} (h : Tracks s w) (hle : ∀ t ∈ times, s.start ≤ t.toNat)
    (hp : times.Pairwise (· ≤ ·)) : (Window.run limit (some w) times).map (fun v => (v.1.toNat, v.2)) =
      (Slot.sequence 60 (some s) (times.map UInt64.toNat)).map
        (fun s => (s.time, Quota.granted limit s)) := by
  induction times generalizing s w with
  | nil => rfl
  | cons now times ih =>
      have hnow := hle now (List.mem_cons_self ..)
      have hnext := h.next hnow
      have htime : (Slot.next 60 now.toNat (some s)).time = now.toNat := by
        rw [Slot.next]; split <;> rfl
      rw [Window.run, List.map_cons, List.map_cons, Slot.sequence, List.map_cons, hnext.granted,
        htime]
      refine congrArg _ (ih hnext (fun t ht => ?_) hp.of_cons)
      exact (next_start_le hnow).trans
        (UInt64.le_iff_toNat_le.mp (List.rel_of_pairwise_cons hp ht))

theorem verdicts_eq {hits : List (String × UInt64)} (hc : ClockForward hits) (key : String) :
    (verdictsOn key ((RateLimiter.new limit).run hits)).map (fun v => (v.1.toNat, v.2)) =
      (slotsOf key hits).map (fun s => (s.time, granted limit s)) := by
  have hp : (hitsOf key hits).Pairwise (· ≤ ·) :=
    List.pairwise_map.mpr (hc.filter (fun h => h.1 = key))
  rw [RateLimiter.verdictsOn_run, slotsOf]
  change (Window.run limit none _).map _ = _
  cases hh : hitsOf key hits with
  | nil => rfl
  | cons now times =>
      rw [hh] at hp
      have hfirst := tracks_fresh now
      rw [Window.run, Window.hit_none, List.map_cons, List.map_cons, Slot.sequence, List.map_cons,
        hfirst.granted]
      refine congrArg _ (hfirst.run (fun t ht => ?_) hp.of_cons)
      exact UInt64.le_iff_toNat_le.mp (List.rel_of_pairwise_cons hp ht)

/-- The code decides as the windows say exactly when no counter wraps. -/
theorem granted_iff {key : String} {hits : List (String × UInt64)} :
    (∀ s ∈ slotsOf key hits, granted limit s = decide (s.place ≤ limit.toNat)) ↔
      ∀ s ∈ slotsOf key hits, InRange limit s := by
  have hlimit := limit.toNat_lt
  constructor
  · intro h s hs
    have hpos := Slot.place_pos hs
    by_cases hr : s.start + 60 < 2 ^ 64
    · refine .inl ⟨hr, ?_⟩
      by_contra hbig
      -- the window then has a hit at which the counter comes back to zero
      rcases Slot.mem_sequence_of_le hs (show 1 ≤ 2 ^ 32 by omega) (not_lt.mp hbig) with
        ⟨l, hl, -⟩ | ⟨s', hs', hstart, hplace⟩
      · cases hl
      · have hwrap := h s' hs'
        rw [granted, hstart, if_pos hr, hplace, Nat.mod_self] at hwrap
        have hle := of_decide_eq_true (hwrap.symm.trans (decide_eq_true (Nat.zero_le _)))
        omega
    · have hg := h s hs
      rw [granted, if_neg hr, decide_eq_decide] at hg
      refine .inr ⟨not_lt.mp hr, ?_⟩
      rcases Nat.eq_zero_or_pos limit.toNat with hz | hp
      · exact .inl hz
      · exact .inr (hg.mp hp)
  · intro h s hs
    have hpos := Slot.place_pos hs
    rw [granted]
    rcases h s hs with ⟨hr, hp⟩ | ⟨hr, hp⟩
    · rw [if_pos hr, Nat.mod_eq_of_lt hp]
    · rw [if_neg (not_lt.mpr hr), decide_eq_decide]
      omega

theorem windows_iff {hits : List (String × UInt64)} (hc : ClockForward hits) (key : String) :
    (verdictsOn key ((RateLimiter.new limit).run hits)).map (fun v => (v.1.toNat, v.2)) =
        (slotsOf key hits).map (fun s => (s.time, decide (s.place ≤ limit.toNat))) ↔
      ∀ s ∈ slotsOf key hits, InRange limit s := by
  rw [verdicts_eq hc, ← granted_iff, List.map_inj_left]
  simp

theorem own_hits {hits hits' : List (String × UInt64)} {key : String}
    (h : hitsOf key hits' = hitsOf key hits) :
    verdictsOn key ((RateLimiter.new limit).run hits') =
      verdictsOn key ((RateLimiter.new limit).run hits) := by
  rw [RateLimiter.verdictsOn_run, RateLimiter.verdictsOn_run, h]

theorem admittedIn_le {hits : List (String × UInt64)} (hc : ClockForward hits) {key : String}
    (h : ∀ s ∈ slotsOf key hits, InRange limit s) (t : Nat) :
    (admittedIn key t ((RateLimiter.new limit).run hits)).length ≤ 2 * limit.toNat := by
  have hp : ((hitsOf key hits).map UInt64.toNat).Pairwise (· ≤ ·) := by
    refine List.pairwise_map.mpr (List.pairwise_map.mpr ?_)
    exact (hc.filter (fun h => h.1 = key)).imp (fun hab => UInt64.le_iff_toNat_le.mp hab)
  have hlen : (admittedIn key t ((RateLimiter.new limit).run hits)).length =
      (((verdictsOn key ((RateLimiter.new limit).run hits)).map (fun v => (v.1.toNat, v.2))).filter
        (fun v => v.2 ∧ t ≤ v.1 ∧ v.1 < t + 60)).length := by
    rw [List.filter_map, List.length_map]
    rfl
  rw [hlen, (windows_iff hc key).mpr h, List.filter_map, List.length_map]
  refine le_trans (le_of_eq ?_) (Slot.admitted_le (show 0 < 60 by omega) hp limit.toNat t)
  simp [Function.comp_def, slotsOf]

end Run

/-- The limiter does what it owes on exactly those sequences of hits on which no
counter and no end of a window wraps, unless that makes no difference. -/
theorem fair_iff_inRange (limit : UInt32) {hits : List (String × UInt64)} (hc : ClockForward hits) :
    Fair limit hits ↔ ∀ key, ∀ s ∈ slotsOf key hits, InRange limit s := by
  constructor
  · intro h key
    exact (windows_iff hc key).mp (h.windows key)
  · intro h
    exact ⟨fun key hits' hh => own_hits hh, fun key => (windows_iff hc key).mpr (h key),
      fun key t => admittedIn_le hc (h key) t⟩

def flood (n : Nat) : List (String × UInt64) := List.replicate n ("w:agent-demo", 0)

theorem mem_slotsOf_flood (n : Nat) : ⟨0, 0, n + 2⟩ ∈ slotsOf "w:agent-demo" (flood (n + 2)) := by
  have hits : (hitsOf "w:agent-demo" (flood (n + 2))).map UInt64.toNat = 0 :: List.replicate (n + 1) 0 := by
    simp [hitsOf, flood, List.replicate_succ]
  rw [slotsOf, hits, Slot.sequence]
  have hlast := @Slot.mem_sequence_replicate 60 ⟨0, 0, 1⟩ 0 (by decide) n
  refine List.mem_cons_of_mem _ ?_
  rw [show n + 2 = 1 + n + 1 by omega]
  exact hlast

theorem clockForward_flood (n : Nat) : ClockForward (flood n) :=
  List.pairwise_replicate.mpr (.inr (UInt64.le_refl _))

/-- In a minute of 2³² writes the last one is admitted again: its counter is
back at zero. -/
theorem flood_admitted : ¬ ∀ (limit : UInt32) (hits : List (String × UInt64)), ClockForward hits →
    Fair limit hits := by
  intro h
  obtain ⟨n, hn⟩ : ∃ n, n + 2 = 2 ^ 32 := ⟨2 ^ 32 - 2, by omega⟩
  have hc := clockForward_flood (n + 2)
  have hslots := (windows_iff hc _).mp ((h 60 (flood (n + 2)) hc).windows "w:agent-demo")
  rcases hslots _ (mem_slotsOf_flood n) with ⟨-, hp⟩ | ⟨hs, -⟩
  · exact absurd hp (by simp only; omega)
  · exact absurd hs (by simp only; omega)

def threeWrites : List (String × UInt64) :=
  [("w:agent-demo", 0), ("w:agent-demo", 10), ("w:agent-demo", 59)]

theorem fair_iff_inRange_three : ((RateLimiter.new 2).run threeWrites).map Verdict.admitted =
    [true, true, false] ∧ Fair 2 threeWrites := by
  refine ⟨by decide, (fair_iff_inRange 2 (by simp [ClockForward, threeWrites])).mpr ?_⟩
  intro key s hs
  by_cases hk : "w:agent-demo" = key
  · subst hk
    have hslots : slotsOf "w:agent-demo" threeWrites = [⟨0, 0, 1⟩, ⟨10, 0, 2⟩, ⟨59, 0, 3⟩] := by
      decide
    rw [hslots] at hs
    simp only [List.mem_cons, List.not_mem_nil, or_false] at hs
    rcases hs with rfl | rfl | rfl <;> exact .inl (by decide)
  · have hnone : hitsOf key threeWrites = [] := by simp [hitsOf, threeWrites, hk]
    rw [slotsOf, hnone] at hs
    cases hs

end AiterCommerce.Guarantees.Quota
