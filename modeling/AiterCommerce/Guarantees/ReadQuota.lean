import AiterCommerce.Server.RateLimit

namespace AiterCommerce.Guarantees.ReadQuota

open AiterCommerce.Server

structure Read where
  peer : Option String
  headers : HeaderMap
  now : UInt64

/-- The client a proxy names: the first entry of the forwarded header. -/
def Read.client (r : Read) : Option String := firstForwarded r.headers

/-- The reads as the running server gets them behind a proxy: each connection is
the proxy's, and each request says who it is forwarded for. -/
def Proxied (proxy : String) (run : List Read) : Prop :=
  ∀ r ∈ run, r.peer = some proxy ∧ r.client.isSome

def ClockForward (run : List Read) : Prop := run.Pairwise (fun a b => a.now ≤ b.now)

def after (limit : UInt32) (earlier : List Read) : RateLimiter :=
  earlier.foldl (fun limiter r => (limitReads limiter r.peer r.headers r.now).2)
    (RateLimiter.new limit)

def answer (limit : UInt32) (earlier : List Read) (r : Read) : Except HttpError Unit :=
  (limitReads (after limit earlier) r.peer r.headers r.now).1

/-- Each read is answered as if the other clients had never come. -/
def Separate (limit : UInt32) (run : List Read) : Prop :=
  ∀ earlier r, earlier ++ [r] <+: run →
    answer limit earlier r = answer limit (earlier.filter (fun e => e.client = r.client)) r

/-- The limiter refuses nothing, or the read is from the client of the read
before it, or the counter it is given opens a new window for it. -/
def Apart (limit : UInt32) (earlier : List Read) (r : Read) : Prop :=
  limit.toNat = 2 ^ 32 - 1 ∨ (∀ last ∈ earlier.getLast?, last.client = r.client) ∨
    ∀ w, (after limit earlier).windows.get (readKey r.peer r.headers) = some w →
      w.start + windowSecs ≤ r.now

def Quiet (limit : UInt32) (earlier : List Read) (r : Read) : Prop :=
  (earlier ++ [r]).countP (fun e => r.now.toNat < e.now.toNat + 60) ≤ limit.toNat

variable {limit : UInt32} {proxy : String} {earlier run : List Read} {r a b : Read}

def counter (earlier : List Read) : Option Window :=
  earlier.foldl (fun entry r => some (Window.hit r.now entry)) none

theorem readKey_of_peer (h : r.peer = some proxy) : readKey r.peer r.headers = "r:" ++ proxy := by
  rw [readKey, h]; rfl

theorem counter_concat (earlier : List Read) (r : Read) :
    counter (earlier ++ [r]) = some (Window.hit r.now (counter earlier)) := by
  simp [counter]

theorem after_get (h : Proxied proxy earlier) :
    (after limit earlier).limit = limit ∧
      (after limit earlier).windows.get ("r:" ++ proxy) = counter earlier := by
  induction earlier using List.reverseRecOn with
  | nil => exact ⟨rfl, rfl⟩
  | append_singleton earlier r ih =>
      obtain ⟨hl, hw⟩ := ih (fun e he => h e (List.mem_append_left _ he))
      have hk := readKey_of_peer (h r (by simp)).1
      have hstep : after limit (earlier ++ [r]) =
          ((after limit earlier).check ("r:" ++ proxy) r.now).2 := by
        rw [← hk]
        simp [after, limitReads]
      rw [hstep]
      refine ⟨hl, ?_⟩
      rw [counter_concat, ← hw]
      exact Core.InMemoryStore.get_insert_self _ _ _

theorem answer_eq (h : Proxied proxy earlier) (hr : r.peer = some proxy) :
    answer limit earlier r =
      if (Window.hit r.now (counter earlier)).hits ≤ limit then .ok () else .error rateLimited := by
  obtain ⟨hl, hw⟩ := @after_get limit proxy earlier h
  simp only [answer, limitReads, readKey_of_peer hr, RateLimiter.check, hl, hw, decide_eq_true_eq]

theorem Proxied.filter (h : Proxied proxy earlier) (p : Read → Bool) :
    Proxied proxy (earlier.filter p) := fun r hr => h r (List.mem_of_mem_filter hr)

def own (client : Option String) (earlier : List Read) : List Read :=
  earlier.filter (fun e => e.client = client)

/-- The open window is the last client's own, and those of the others are over. -/
def Sole (earlier : List Read) : Prop :=
  ∀ last ∈ earlier.getLast?, counter earlier = counter (own last.client earlier) ∧
    ∀ client ≠ last.client, ∀ w, counter (own client earlier) = some w →
      w.start + windowSecs ≤ last.now

theorem own_concat_self (earlier : List Read) (r : Read) :
    own r.client (earlier ++ [r]) = own r.client earlier ++ [r] := by
  simp [own]

theorem own_concat_ne {client : Option String} (h : client ≠ r.client) (earlier : List Read) :
    own client (earlier ++ [r]) = own client earlier := by
  simp [own, Ne.symm h]

theorem Sole.hit_eq (h : Sole earlier) (hc : ∀ e ∈ earlier, e.now ≤ r.now)
    (hr : (∀ last ∈ earlier.getLast?, last.client = r.client) ∨
      ∀ w, counter earlier = some w → w.start + windowSecs ≤ r.now) :
    Window.hit r.now (counter earlier) = Window.hit r.now (counter (own r.client earlier)) := by
  cases hl : earlier.getLast? with
  | none =>
      rw [List.getLast?_eq_none_iff.mp hl]
      rfl
  | some last =>
      obtain ⟨hown, hothers⟩ := h last hl
      by_cases hlast : r.client = last.client
      · rw [hown, hlast]
      · have hexp := hr.resolve_left (fun hs => hlast (hs last hl).symm)
        have hfresh : Window.hit r.now (counter earlier) = ⟨r.now, 1⟩ := by
          cases hw : counter earlier with
          | none => exact Window.hit_none _
          | some w => exact Window.hit_expired (hexp w hw)
        rw [hfresh]
        cases hw : counter (own r.client earlier) with
        | none => exact (Window.hit_none _).symm
        | some w =>
            have hle := hothers r.client hlast w hw
            exact (Window.hit_expired (UInt64.le_trans hle (hc last (List.mem_of_getLast? hl)))).symm

theorem Sole.concat (h : Sole earlier) (hc : ∀ e ∈ earlier, e.now ≤ r.now)
    (hr : (∀ last ∈ earlier.getLast?, last.client = r.client) ∨
      ∀ w, counter earlier = some w → w.start + windowSecs ≤ r.now) : Sole (earlier ++ [r]) := by
  intro last hlast
  obtain rfl : r = last := by simpa using hlast
  refine ⟨?_, fun client hclient w hw => ?_⟩
  · rw [counter_concat, own_concat_self, counter_concat, h.hit_eq hc hr]
  · rw [own_concat_ne hclient] at hw
    cases hl : earlier.getLast? with
    | none =>
        rw [List.getLast?_eq_none_iff.mp hl] at hw
        cases hw
    | some last =>
        obtain ⟨hown, hothers⟩ := h last hl
        by_cases hlast : client = last.client
        · subst hlast
          exact hr.resolve_left (fun hs => hclient (hs last hl)) w (hown.trans hw)
        · exact UInt64.le_trans (hothers client hlast w hw) (hc last (List.mem_of_getLast? hl))

theorem Apart.counter (h : Apart limit earlier r) (hp : Proxied proxy earlier)
    (hr : r.peer = some proxy) (hlimit : limit.toNat ≠ 2 ^ 32 - 1) :
    (∀ last ∈ earlier.getLast?, last.client = r.client) ∨
      ∀ w, ReadQuota.counter earlier = some w → w.start + windowSecs ≤ r.now := by
  have hget := (@after_get limit proxy earlier hp).2
  rw [Apart, readKey_of_peer hr, hget] at h
  exact h.resolve_left hlimit

theorem ClockForward.le_last (h : ClockForward (earlier ++ [r])) : ∀ e ∈ earlier, e.now ≤ r.now :=
  fun e he => (List.pairwise_append.mp h).2.2 e he r (List.mem_singleton_self r)

theorem sole_of_apart (hp : Proxied proxy run) (hc : ClockForward run)
    (hlimit : limit.toNat ≠ 2 ^ 32 - 1)
    (h : ∀ earlier r, earlier ++ [r] <+: run → Apart limit earlier r) : Sole run := by
  induction run using List.reverseRecOn with
  | nil => exact fun last hlast => by cases hlast
  | append_singleton run r ih =>
      have hp' : Proxied proxy run := fun e he => hp e (List.mem_append_left _ he)
      have hsole := ih hp' (List.pairwise_append.mp hc).1
        (fun earlier e he => h earlier e (he.trans (List.prefix_append _ _)))
      have hapart := (h run r List.prefix_rfl).counter hp' (hp r (by simp)).1 hlimit
      exact hsole.concat hc.le_last hapart

theorem answer_of_max (hp : Proxied proxy earlier) (hr : r.peer = some proxy)
    (hlimit : limit.toNat = 2 ^ 32 - 1) : answer limit earlier r = .ok () := by
  rw [answer_eq hp hr, if_pos]
  have hhits := (Window.hit r.now (counter earlier)).hits.toNat_lt
  rw [UInt32.le_iff_toNat_le]
  omega

theorem separate_run (hp : Proxied proxy run) (hc : ClockForward run)
    (h : ∀ earlier r, earlier ++ [r] <+: run → Apart limit earlier r) : Separate limit run := by
  intro earlier r hpre
  have hp' : Proxied proxy (earlier ++ [r]) := fun e he => hp e (hpre.subset he)
  have hearlier : Proxied proxy earlier := fun e he => hp' e (List.mem_append_left _ he)
  have hr := (hp' r (by simp)).1
  by_cases hlimit : limit.toNat = 2 ^ 32 - 1
  · rw [answer_of_max hearlier hr hlimit, answer_of_max (hearlier.filter _) hr hlimit]
  · have hc' : ClockForward (earlier ++ [r]) := hc.sublist hpre.sublist
    have hsole : Sole earlier := by
      refine sole_of_apart hearlier (List.pairwise_append.mp hc').1 hlimit (fun e a he => ?_)
      exact h e a (he.trans ((List.prefix_append _ _).trans hpre))
    have hhit := hsole.hit_eq hc'.le_last ((h earlier r hpre).counter hearlier hr hlimit)
    rw [answer_eq hearlier hr, answer_eq (hearlier.filter _) hr, hhit]
    rfl

theorem counter_le (hc : ClockForward earlier) {w : Window} (h : counter earlier = some w) :
    (∃ e ∈ earlier, w.start = e.now) ∧
      w.hits.toNat ≤ earlier.countP (fun e => w.start ≤ e.now) := by
  induction earlier using List.reverseRecOn generalizing w with
  | nil => cases h
  | append_singleton earlier r ih =>
      rw [counter_concat] at h
      have hw := (Option.some.inj h).symm
      have hfresh : w = ⟨r.now, 1⟩ → (∃ e ∈ earlier ++ [r], w.start = e.now) ∧
          w.hits.toNat ≤ (earlier ++ [r]).countP (fun e => w.start ≤ e.now) := by
        rintro rfl
        refine ⟨⟨r, by simp, rfl⟩, ?_⟩
        rw [List.countP_append, List.countP_singleton, if_pos (decide_eq_true (UInt64.le_refl _))]
        exact Nat.le_add_left 1 _
      cases hcount : counter earlier with
      | none => exact hfresh (by rw [hw, hcount, Window.hit_none])
      | some w' =>
          obtain ⟨⟨e, he, hstart⟩, hhits⟩ := ih (List.pairwise_append.mp hc).1 hcount
          by_cases hexp : w'.start + windowSecs ≤ r.now
          · exact hfresh (by rw [hw, hcount, Window.hit_expired hexp])
          · rw [hcount, Window.hit_open hexp] at hw
            subst hw
            refine ⟨⟨e, List.mem_append_left _ he, hstart⟩, ?_⟩
            have hle : w'.start ≤ r.now := hstart ▸ hc.le_last e he
            rw [List.countP_append, List.countP_singleton, if_pos (decide_eq_true hle)]
            refine le_trans ?_ (Nat.add_le_add_right hhits 1)
            rw [UInt32.toNat_add]
            exact Nat.mod_le _ _

theorem recent_of_open {w : Window} {now : UInt64} (h : ¬ w.start + windowSecs ≤ now) :
    now.toNat < w.start.toNat + 60 := by
  have hn := now.toNat_lt
  rw [UInt64.le_iff_toNat_le, UInt64.toNat_add, show windowSecs.toNat = 60 from rfl] at h
  omega

theorem hit_le (hc : ClockForward (earlier ++ [r])) :
    (Window.hit r.now (counter earlier)).hits.toNat ≤
      (earlier ++ [r]).countP (fun e => r.now.toNat < e.now.toNat + 60) := by
  have hc' : ClockForward earlier := (List.pairwise_append.mp hc).1
  obtain ⟨⟨e, he, hstart⟩, hle⟩ := counter_le hc (counter_concat earlier r)
  refine hle.trans (List.countP_mono_left (fun e' he' hge => ?_))
  have hge : (Window.hit r.now (counter earlier)).start ≤ e'.now := of_decide_eq_true hge
  have hrecent : r.now.toNat < (Window.hit r.now (counter earlier)).start.toNat + 60 := by
    cases hcount : counter earlier with
    | none =>
        rw [Window.hit_none]
        exact Nat.lt_add_of_pos_right (by omega)
    | some w =>
        by_cases hexp : w.start + windowSecs ≤ r.now
        · rw [Window.hit_expired hexp]
          exact Nat.lt_add_of_pos_right (by omega)
        · rw [Window.hit_open hexp]
          exact recent_of_open hexp
  rw [UInt64.le_iff_toNat_le] at hge
  exact decide_eq_true (by omega)

theorem answer_of_quiet (hp : Proxied proxy earlier) (hr : r.peer = some proxy)
    (hc : ClockForward (earlier ++ [r])) (h : Quiet limit earlier r) :
    answer limit earlier r = .ok () := by
  rw [answer_eq hp hr, if_pos]
  exact UInt32.le_iff_toNat_le.mpr ((hit_le hc).trans h)

theorem Quiet.of_sublist {earlier' : List Read} (h : Quiet limit earlier r)
    (hsub : earlier'.Sublist earlier) : Quiet limit earlier' r :=
  le_trans (List.Sublist.countP_le (hsub.append (List.Sublist.refl [r]))) h

theorem separate_of_quiet (hp : Proxied proxy run) (hc : ClockForward run)
    (h : ∀ earlier r, earlier ++ [r] <+: run → Quiet limit earlier r) : Separate limit run := by
  intro earlier r hpre
  have hp' : Proxied proxy (earlier ++ [r]) := fun e he => hp e (hpre.subset he)
  have hearlier : Proxied proxy earlier := fun e he => hp' e (List.mem_append_left _ he)
  have hr := (hp' r (by simp)).1
  have hc' : ClockForward (earlier ++ [r]) := hc.sublist hpre.sublist
  have hsub : (earlier.filter (fun e => e.client = r.client)).Sublist earlier :=
    List.filter_sublist
  have hquiet := h earlier r hpre
  rw [answer_of_quiet hearlier hr hc' hquiet,
    answer_of_quiet (hearlier.filter _) hr (hc'.sublist (hsub.append (List.Sublist.refl [r])))
      (hquiet.of_sublist hsub)]

theorem counter_replicate_start (a : Read) (n : Nat) {w : Window}
    (h : counter (List.replicate n a) = some w) : w.start = a.now := by
  induction n generalizing w with
  | zero => cases h
  | succ n ih =>
      rw [List.replicate_succ', counter_concat] at h
      have hw := (Option.some.inj h).symm
      cases hcount : counter (List.replicate n a) with
      | none => rw [hw, hcount, Window.hit_none]
      | some w' =>
          by_cases hexp : w'.start + windowSecs ≤ a.now
          · rw [hw, hcount, Window.hit_expired hexp]
          · rw [hw, hcount, Window.hit_open hexp]
            exact @ih w' hcount

theorem counter_replicate (ha : ¬ a.now + windowSecs ≤ a.now) (n : Nat) :
    counter (List.replicate (n + 1) a) = some ⟨a.now, UInt32.ofNat (n + 1)⟩ := by
  induction n with
  | zero => exact congrArg some (Window.hit_none a.now)
  | succ n ih =>
      have hhit : Window.hit a.now (some ⟨a.now, UInt32.ofNat (n + 1)⟩) =
          ⟨a.now, UInt32.ofNat (n + 1) + 1⟩ := Window.hit_open (w := ⟨a.now, _⟩) ha
      rw [List.replicate_succ', counter_concat, ih, hhit]
      congr 2
      rw [← UInt32.toNat_inj]
      simp only [UInt32.toNat_add, UInt32.toNat_ofNat']
      rw [show (1 : UInt32).toNat = 1 from rfl]
      omega

theorem own_replicate_of_ne (h : a.client ≠ b.client) (n : Nat) :
    own b.client (List.replicate n a) = [] := by
  simp [own, h]

theorem decided_iff {p q : Prop} [Decidable p] [Decidable q] :
    (if p then .ok () else .error rateLimited : Except HttpError Unit) =
      (if q then .ok () else .error rateLimited) ↔ (p ↔ q) := by
  by_cases hp : p <;> by_cases hq : q <;> simp [hp, hq]

/-- So many reads of one client decide a read of another one within the minute. -/
theorem exists_not_separate (ha : a.peer = some proxy) (hb : b.peer = some proxy)
    (hac : a.client.isSome) (hle : a.now ≤ b.now)
    (hlimit : limit.toNat ≠ 2 ^ 32 - 1) (hclient : a.client ≠ b.client)
    (hopen : ¬ a.now + windowSecs ≤ b.now) :
    ∃ n, ¬ Separate limit (List.replicate n a ++ [b]) := by
  have hmax := limit.toNat_lt
  have hwrap : ¬ a.now + windowSecs ≤ a.now := fun h => hopen (UInt64.le_trans h hle)
  -- as many reads as the limit, or as bring the counter back to zero
  refine ⟨(if limit.toNat = 0 then 2 ^ 32 - 2 else limit.toNat - 1) + 1, fun h => ?_⟩
  generalize hn : (if limit.toNat = 0 then 2 ^ 32 - 2 else limit.toNat - 1) = n at h
  have hans := h (List.replicate (n + 1) a) b List.prefix_rfl
  have hproxied : Proxied proxy (List.replicate (n + 1) a) := by
    intro r hr
    obtain rfl := List.eq_of_mem_replicate hr
    exact ⟨ha, hac⟩
  have hown : (List.replicate (n + 1) a).filter (fun e => e.client = b.client) = [] :=
    own_replicate_of_ne hclient (n + 1)
  have hhit : Window.hit b.now (some ⟨a.now, UInt32.ofNat (n + 1)⟩) =
      ⟨a.now, UInt32.ofNat (n + 1) + 1⟩ := Window.hit_open (w := ⟨a.now, _⟩) hopen
  rw [hown, answer_eq hproxied hb, answer_eq (fun r hr => by cases hr) hb, counter_replicate hwrap,
    hhit, show counter [] = none from rfl, Window.hit_none] at hans
  have hiff := decided_iff.mp hans
  rw [UInt32.le_iff_toNat_le, UInt32.le_iff_toNat_le, UInt32.toNat_add, UInt32.toNat_ofNat',
    show (1 : UInt32).toNat = 1 from rfl] at hiff
  split at hn <;> omega

theorem apart_replicate (ha : a.peer = some proxy) (hb : b.peer = some proxy)
    (hac : a.client.isSome) (h : limit.toNat = 2 ^ 32 - 1 ∨ a.client = b.client ∨
      a.now + windowSecs ≤ b.now) {n : Nat} (hpre : earlier ++ [r] <+: List.replicate n a ++ [b]) :
    Apart limit earlier r := by
  rcases List.prefix_concat_iff.mp hpre with heq | hpre
  · obtain ⟨rfl, hrb⟩ := List.append_inj' heq rfl
    obtain rfl : r = b := by simpa using hrb
    rcases h with h | h | h
    · exact .inl h
    · refine .inr (.inl fun last hlast => ?_)
      rwa [List.eq_of_mem_replicate (List.mem_of_getLast? hlast)]
    · refine .inr (.inr fun w hw => ?_)
      have hproxied : Proxied proxy (List.replicate n a) := by
        intro e he
        obtain rfl := List.eq_of_mem_replicate he
        exact ⟨ha, hac⟩
      rw [readKey_of_peer hb, (after_get hproxied).2] at hw
      rwa [counter_replicate_start a n hw]
  · have hmem : ∀ e ∈ earlier ++ [r], e = a := fun e he =>
      List.eq_of_mem_replicate (hpre.subset he)
    refine .inr (.inl fun last hlast => ?_)
    rw [hmem r (by simp), hmem last (by simp [List.mem_of_getLast? hlast])]

/-- Reads behind a proxy are kept apart in every run in which the clients take
turns, a new one coming only when the window before is over, and in every run in
which all of them together stay within the limit. How often one client reads is
without effect on another one's read exactly when a minute lies between. -/
theorem separate_of_turns (limit : UInt32) (proxy : String) :
    (∀ run, Proxied proxy run → ClockForward run →
      (∀ earlier r, earlier ++ [r] <+: run → Apart limit earlier r) ∨
        (∀ earlier r, earlier ++ [r] <+: run → Quiet limit earlier r) → Separate limit run) ∧
    ∀ a b, Proxied proxy [a, b] → a.now ≤ b.now →
      ((∀ n, Separate limit (List.replicate n a ++ [b])) ↔
        limit.toNat = 2 ^ 32 - 1 ∨ a.client = b.client ∨ a.now + windowSecs ≤ b.now) := by
  refine ⟨fun run hp hc h => h.elim (separate_run hp hc) (separate_of_quiet hp hc), ?_⟩
  intro a b hp hle
  have ha := hp a (by simp)
  have hb := hp b (by simp)
  constructor
  · intro h
    by_contra hnone
    obtain ⟨hlimit, hclient, hopen⟩ := by simpa only [not_or] using hnone
    obtain ⟨n, hn⟩ := exists_not_separate ha.1 hb.1 ha.2 hle hlimit hclient hopen
    exact hn (h n)
  · intro h n
    refine @separate_run limit proxy _ (fun r hr => ?_) ?_
      (fun earlier r => apart_replicate ha.1 hb.1 ha.2 h)
    · rcases List.mem_append.mp hr with hr | hr
      · obtain rfl := List.eq_of_mem_replicate hr
        exact ha
      · obtain rfl := List.mem_singleton.mp hr
        exact hb
    · refine List.pairwise_append.mpr ⟨List.pairwise_replicate.mpr (.inr (UInt64.le_refl _)),
        List.pairwise_singleton _ _, fun e he r hr => ?_⟩
      rw [List.eq_of_mem_replicate he, List.mem_singleton.mp hr]
      exact hle

def forwardedRead (client : String) (now : UInt64) : Read :=
  ⟨some "10.0.0.9", [("x-forwarded-for", Core.utf8 client)], now⟩

theorem proxied_forwardedRead {client : String} {now : UInt64}
    (h : (forwardedRead client now).client.isSome) (n : Nat) :
    Proxied "10.0.0.9" (List.replicate n (forwardedRead client now)) := by
  intro r hr
  rw [List.eq_of_mem_replicate hr]
  exact ⟨rfl, h⟩

def busyClient : List Read := List.replicate 120 (forwardedRead "203.0.113.7" 100)

def delivery : Read := forwardedRead "52.66.76.63" 101

example : (forwardedRead "203.0.113.7, 172.17.0.1" 0).client = some "203.0.113.7" := by decide

theorem proxied_delivery : Proxied "10.0.0.9" (busyClient ++ [delivery]) := by
  intro r hr
  rcases List.mem_append.mp hr with hr | hr
  · exact proxied_forwardedRead (by decide) 120 r hr
  · rw [List.mem_singleton.mp hr]
    exact ⟨rfl, by decide⟩

theorem clockForward_delivery : ClockForward (busyClient ++ [delivery]) := by
  refine List.pairwise_append.mpr ⟨List.pairwise_replicate.mpr (.inr (UInt64.le_refl _)),
    List.pairwise_singleton _ _, fun e he r hr => ?_⟩
  rw [List.eq_of_mem_replicate he, List.mem_singleton.mp hr]
  decide

/-- The delivery is refused, though it is the first of its client. -/
theorem delivery_refused : Proxied "10.0.0.9" (busyClient ++ [delivery]) ∧
    ClockForward (busyClient ++ [delivery]) ∧
    answer defaultReadsPerMin busyClient delivery = .error rateLimited ∧
    answer defaultReadsPerMin
      (busyClient.filter (fun e => e.client = delivery.client)) delivery = .ok () ∧
    ¬ Separate defaultReadsPerMin (busyClient ++ [delivery]) := by
  have hbusy : Proxied "10.0.0.9" busyClient := proxied_forwardedRead (by decide) 120
  have hcounter : counter busyClient = some ⟨100, 120⟩ :=
    counter_replicate (a := forwardedRead "203.0.113.7" 100) (by decide) 119
  have hrefused : answer defaultReadsPerMin busyClient delivery = .error rateLimited := by
    rw [answer_eq hbusy rfl, hcounter]
    decide
  have hown : busyClient.filter (fun e => e.client = delivery.client) = [] :=
    own_replicate_of_ne (a := forwardedRead "203.0.113.7" 100) (b := delivery) (by decide) 120
  have hadmitted : answer defaultReadsPerMin
      (busyClient.filter (fun e => e.client = delivery.client)) delivery = .ok () := by
    rw [hown]
    decide
  refine ⟨proxied_delivery, clockForward_delivery, hrefused, hadmitted, fun h => ?_⟩
  have hsame := h busyClient delivery List.prefix_rfl
  rw [hrefused, hadmitted] at hsame
  cases hsame

theorem separate_of_turns_two :
    Separate 2 [forwardedRead "203.0.113.7" 0, forwardedRead "198.51.100.2" 1] ∧
      Separate 2 (List.replicate 5 (forwardedRead "203.0.113.7" 0) ++
        [forwardedRead "198.51.100.2" 60]) := by
  have hp (now : UInt64) : Proxied "10.0.0.9"
      [forwardedRead "203.0.113.7" 0, forwardedRead "198.51.100.2" now] := by
    intro r hr
    simp only [List.mem_cons, List.not_mem_nil, or_false] at hr
    rcases hr with rfl | rfl
    · exact ⟨rfl, by decide⟩
    · refine ⟨rfl, ?_⟩
      change (forwardedRead "198.51.100.2" 0).client.isSome
      decide
  refine ⟨(separate_of_turns 2 "10.0.0.9").1 _ (hp 1) ?_ (.inr fun earlier r hpre => ?_),
    ((separate_of_turns 2 "10.0.0.9").2 _ _ (hp 60) (by decide)).mpr (.inr (.inr (by decide))) 5⟩
  · simp [ClockForward, forwardedRead]
  · exact List.countP_le_length.trans hpre.length_le

end AiterCommerce.Guarantees.ReadQuota
