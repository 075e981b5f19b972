import AciX.Context

/-!
# The rate of queries

`LimitQueryRate` looks up when the last query came for the same key, stores when this one came, and
lets it sleep for the rest of the least interval. So while one query sleeps, the next is delayed by
the time since that one came. The queries of a key are let go an interval apart exactly when each
one that comes after a delayed one comes an interval after that was let go (`spaced_iff`). Times are
in ticks.
-/

namespace AciX.Rate

open List

structure Config where
  minMsecsBetweenQueries : ℤ
  minMsecsBetweenRobotQueries : ℤ → ℤ
  limitQueryRateWith503 : Bool

structure Call where
  arrival : ℕ
  clientIP : Option Text
  robotID : ℤ := 0

namespace Call

def cacheKey (c : Call) : Option Text :=
  c.clientIP.map fun ip => if c.robotID ≠ 0 then intText c.robotID else ip

def minMsecs (cfg : Config) (c : Call) : ℤ :=
  if c.robotID ≠ 0 then cfg.minMsecsBetweenRobotQueries c.robotID else cfg.minMsecsBetweenQueries

end Call

def ticksPerMsec : ℤ := 10000

def delay (minMsecs ticks : ℤ) : ℤ :=
  if ticks < minMsecs * ticksPerMsec then minMsecs - ticks.tdiv ticksPerMsec else 0

abbrev LastQueries := Text → Option ℕ

/-- `LimitQueryRate`: the stored times, and when the call is let go; `none` is the answer 503. -/
def limitQueryRate (cfg : Config) (cache : LastQueries) (c : Call) : LastQueries × Option ℤ :=
  match c.cacheKey with
  | none => (cache, some c.arrival)
  | some key =>
    -- no time is read as `DateTime.MinValue`
    let sinceLastQuery : ℤ := c.arrival - ((cache key).getD 0 : ℕ)
    let min := c.minMsecs cfg
    (Function.update cache key (some c.arrival),
      if sinceLastQuery < min * ticksPerMsec ∧ cfg.limitQueryRateWith503 = true then none
      else some (c.arrival + delay min sinceLastQuery * ticksPerMsec))

def serve (cfg : Config) : LastQueries → List Call → List (Call × Option ℤ)
  | _, [] => []
  | cache, c :: calls =>
    (c, (limitQueryRate cfg cache c).2) :: serve cfg (limitQueryRate cfg cache c).1 calls

def releases (cfg : Config) (calls : List Call) (key : Text) : List ℤ :=
  ((serve cfg (fun _ => none) calls).filter fun r => r.1.cacheKey = some key).filterMap (·.2)

/-- Any two calls for the key are let go at least so many milliseconds apart. -/
def Spaced (cfg : Config) (calls : List Call) (key : Text) (msecs : ℤ) : Prop :=
  (releases cfg calls key).Pairwise fun r s => msecs * ticksPerMsec ≤ |s - r|

def arrivals (calls : List Call) (key : Text) : List ℕ :=
  (calls.filter fun c => c.cacheKey = some key).map (·.arrival)

/-- A call that comes less than `msecs` after the last one is followed by none for twice as long,
counted from that last one in whole milliseconds. -/
def Unhurried (msecs : ℤ) : ℕ → List ℕ → Prop
  | _, [] => True
  | _, [_] => True
  | a, b :: c :: ts =>
    ((b - a : ℤ) < msecs * ticksPerMsec →
      (2 * msecs - (b - a : ℤ).tdiv ticksPerMsec) * ticksPerMsec ≤ (c - b : ℤ)) ∧
      Unhurried msecs b (c :: ts)

section OneKey

variable {msecs : ℤ}

def release (msecs : ℤ) (a b : ℕ) : ℤ := b + delay msecs (b - a) * ticksPerMsec

def releasesFrom (msecs : ℤ) : ℕ → List ℕ → List ℤ
  | _, [] => []
  | a, b :: ts => release msecs a b :: releasesFrom msecs b ts

theorem msec_le {a b : ℕ} (hab : a ≤ b) :
    0 ≤ (b - a : ℤ).tdiv ticksPerMsec ∧
      (b - a : ℤ).tdiv ticksPerMsec * ticksPerMsec ≤ (b - a : ℤ) ∧
      (b - a : ℤ) < ((b - a : ℤ).tdiv ticksPerMsec + 1) * ticksPerMsec := by
  have hnonneg : (0 : ℤ) ≤ b - a := by omega
  rw [Int.tdiv_eq_ediv_of_nonneg hnonneg]
  unfold ticksPerMsec
  omega

/-- Two calls in a row are let go apart exactly if the second does not come too soon after the
first, should that have been delayed. -/
theorem apart_iff {a b c : ℕ} (hab : a ≤ b) (hbc : b ≤ c) :
    msecs * ticksPerMsec ≤ |release msecs b c - release msecs a b| ↔
      ((b - a : ℤ) < msecs * ticksPerMsec →
        (2 * msecs - (b - a : ℤ).tdiv ticksPerMsec) * ticksPerMsec ≤ (c - b : ℤ)) := by
  obtain ⟨h0, h1, h2⟩ := msec_le hab
  obtain ⟨g0, g1, g2⟩ := msec_le hbc
  unfold release delay
  generalize (b - a : ℤ).tdiv ticksPerMsec = d at *
  generalize (c - b : ℤ).tdiv ticksPerMsec = e at *
  unfold ticksPerMsec at *
  split_ifs with hc hb hb
  all_goals rw [le_abs]; omega

theorem le_release {a b c : ℕ} (hab : a ≤ b) (hbc : b ≤ c)
    (h : (b - a : ℤ) < msecs * ticksPerMsec →
        (2 * msecs - (b - a : ℤ).tdiv ticksPerMsec) * ticksPerMsec ≤ (c - b : ℤ)) :
    release msecs a b + msecs * ticksPerMsec ≤ release msecs b c := by
  obtain ⟨h0, h1, h2⟩ := msec_le hab
  obtain ⟨g0, g1, g2⟩ := msec_le hbc
  unfold release delay
  generalize (b - a : ℤ).tdiv ticksPerMsec = d at *
  generalize (c - b : ℤ).tdiv ticksPerMsec = e at *
  unfold ticksPerMsec at *
  split_ifs with hc hb hb
  all_goals omega

theorem pairwise_of_unhurried (hm : 0 < msecs) : ∀ {a : ℕ} {ts : List ℕ},
    (a :: ts).Pairwise (· ≤ ·) → Unhurried msecs a ts →
      (releasesFrom msecs a ts).Pairwise fun r s => r + msecs * ticksPerMsec ≤ s
  | _, [], _, _ => .nil
  | _, [_], _, _ => pairwise_singleton _ _
  | a, b :: c :: ts, hord, h => by
    have hord' := pairwise_cons.1 hord
    have ih := pairwise_of_unhurried hm hord'.2 h.2
    have hbc : b ≤ c := (pairwise_cons.1 hord'.2).1 c (by simp)
    have hnext := le_release (hord'.1 b (by simp)) hbc h.1
    refine pairwise_cons.2 ⟨fun s hs => ?_, ih⟩
    rcases mem_cons.1 hs with rfl | hs
    · exact hnext
    · have hlater := (pairwise_cons.1 ih).1 s hs
      have hpos : 0 < msecs * ticksPerMsec := mul_pos hm (by decide)
      omega

theorem unhurried_of_pairwise : ∀ {a : ℕ} {ts : List ℕ},
    (a :: ts).Pairwise (· ≤ ·) →
      (releasesFrom msecs a ts).Pairwise (fun r s => msecs * ticksPerMsec ≤ |s - r|) →
        Unhurried msecs a ts
  | _, [], _, _ => trivial
  | _, [_], _, _ => trivial
  | a, b :: c :: ts, hord, h => by
    have hord' := pairwise_cons.1 hord
    have h' := pairwise_cons.1 h
    have hbc : b ≤ c := (pairwise_cons.1 hord'.2).1 c (by simp)
    refine ⟨(apart_iff (hord'.1 b (by simp)) hbc).1 (h'.1 _ mem_cons_self), ?_⟩
    exact unhurried_of_pairwise hord'.2 h'.2

theorem pairwise_iff (msecs : ℤ) {a : ℕ} {ts : List ℕ} (hord : (a :: ts).Pairwise (· ≤ ·)) :
    (releasesFrom msecs a ts).Pairwise (fun r s => msecs * ticksPerMsec ≤ |s - r|) ↔
      Unhurried msecs a ts := by
  refine ⟨unhurried_of_pairwise hord, fun h => ?_⟩
  rcases le_or_gt msecs 0 with hm | hm
  · have hneg : msecs * ticksPerMsec ≤ 0 := mul_nonpos_of_nonpos_of_nonneg hm (by decide)
    exact pairwise_of_forall fun r s => hneg.trans (abs_nonneg _)
  · refine (pairwise_of_unhurried hm hord h).imp fun hle => ?_
    exact (by omega : msecs * ticksPerMsec ≤ _ - _).trans (le_abs_self _)

end OneKey

section Serve

variable {cfg : Config} {key : Text} {msecs : ℤ}

theorem serve_key (h503 : cfg.limitQueryRateWith503 = false) :
    ∀ (cache : LastQueries) {calls : List Call},
      (∀ c ∈ calls, c.cacheKey = some key → c.minMsecs cfg = msecs) →
      ((serve cfg cache calls).filter fun r => r.1.cacheKey = some key).filterMap (·.2) =
        releasesFrom msecs ((cache key).getD 0) (arrivals calls key)
  | _, [], _ => rfl
  | cache, c :: calls, hmin => by
    have hrest : ∀ c' ∈ calls, c'.cacheKey = some key → c'.minMsecs cfg = msecs :=
      fun c' hc' => hmin c' (mem_cons_of_mem c hc')
    have ih := serve_key h503 (limitQueryRate cfg cache c).1 hrest
    by_cases hc : c.cacheKey = some key
    · have hstep : limitQueryRate cfg cache c = (Function.update cache key (some c.arrival),
          some (release msecs ((cache key).getD 0) c.arrival)) := by
        simp only [limitQueryRate, hc, h503, hmin c (by simp) hc, Bool.false_eq_true, and_false,
          if_false, release]
      rw [serve, filter_cons_of_pos (by simpa using hc), arrivals,
        filter_cons_of_pos (by simpa using hc), map_cons, ← arrivals, releasesFrom]
      rw [hstep] at ih ⊢
      simp only [Function.update_self, Option.getD_some] at ih
      simp only [filterMap_cons, ih]
    · have hcache : (limitQueryRate cfg cache c).1 key = cache key := by
        unfold limitQueryRate
        split
        · rfl
        · rename_i key' hkey'
          refine Function.update_of_ne ?_ _ _
          rintro rfl
          exact hc hkey'
      rw [serve, filter_cons_of_neg (by simpa using hc), arrivals,
        filter_cons_of_neg (by simpa using hc), ← arrivals, ih, hcache]

/-- The calls of a key are let go at the configured distance exactly if they arrive unhurried. -/
theorem spaced_iff (cfg : Config) (h503 : cfg.limitQueryRateWith503 = false) (calls : List Call)
    (hord : calls.Pairwise fun c d => c.arrival ≤ d.arrival) (key : Text) (msecs : ℤ)
    (hmin : ∀ c ∈ calls, c.cacheKey = some key → c.minMsecs cfg = msecs) :
    Spaced cfg calls key msecs ↔ Unhurried msecs 0 (arrivals calls key) := by
  have hserve := serve_key h503 (fun _ => none) hmin
  rw [Option.getD_none] at hserve
  rw [Spaced, releases, hserve]
  refine pairwise_iff msecs (pairwise_cons.2 ⟨fun _ _ => Nat.zero_le _, ?_⟩)
  exact pairwise_map.2 (hord.filter _)

def allClients : Config := ⟨2000, fun _ => 2000, false⟩

def query (msecs : ℕ) : Call where
  arrival := 635000000000000000 + msecs * 10000
  clientIP := some ['1', '.', '2', '.', '3', '.', '4']

theorem two_queries_spaced :
    Spaced allClients [query 0, query 500] ['1', '.', '2', '.', '3', '.', '4'] 2000 := by
  refine (spaced_iff _ rfl _ ?_ _ _ ?_).2 ?_
  · decide
  · simp [query, Call.minMsecs, allClients]
  · exact ⟨by decide, trivial⟩

/-- The third of three queries is let go one millisecond after the second. -/
theorem three_queries_not_spaced :
    ¬Spaced allClients [query 0, query 1, query 2] ['1', '.', '2', '.', '3', '.', '4'] 2000 := by
  unfold Spaced
  decide

end Serve

end AciX.Rate
