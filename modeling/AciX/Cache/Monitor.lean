import AciX.Cache.Client
import AciX.Run

/-!
# The statistics of a region

`CacheMonitor` counts the operations of a region, and every few seconds sets its counters to zero
and adds what it has counted to a hash on the server, through the same client, whose operations it
counts. What an operation that fails was to add is gone. So what is published and pending is the
number of operations since the last reset exactly in the runs of `exact_iff`.
-/

namespace AciX

open List

structure HashReply where
  reached : Bool
  threw : Bool
  msecs : ℤ := 0

def HashReply.applied (o : HashReply) : Bool := o.reached || !o.threw

structure Monitor where
  stat : StatKey → ℤ
  published : StatKey → Option ℤ

inductive HashOp where
  | increment (key : StatKey) (n : ℤ)
  | put (key : StatKey)

def HashOp.key : HashOp → StatKey
  | increment key _ => key
  | put key => key

namespace Monitor

section Model

variable (s : Monitor)

def add (key : StatKey) (n : ℤ) : Monitor :=
  { s with stat := Function.update s.stat key (s.stat key + n) }

def countRead (hits misses : ℕ) (msecs : ℤ) : Monitor :=
  ((s.add .readHits hits).add .readMisses misses).add .readMsecs msecs

def countWrite (msecs : ℤ) : Monitor := (s.add .writes 1).add .writeMsecs msecs

def countDelete (hits misses : ℕ) (msecs : ℤ) : Monitor :=
  ((s.add .deleteHits hits).add .deleteMisses misses).add .deleteMsecs msecs

def setField (key : StatKey) (v : Option ℤ) : Monitor :=
  { s with published := Function.update s.published key v }

def incrementHash (o : HashReply) (key : StatKey) (n : ℤ) : Monitor :=
  let s := if o.applied then s.setField key (some ((s.published key).getD 0 + n)) else s
  if o.threw then s else s.countWrite o.msecs

/-- The command is sent without waiting for the answer, so it may be lost without an exception. -/
def putHash (o : HashReply) (key : StatKey) : Monitor :=
  let s := if o.reached then s.setField key (some 0) else s
  if o.threw then s else s.countWrite o.msecs

def removeHash (o : HashReply) (key : StatKey) : Monitor :=
  let hit := (s.published key).isSome
  let s := if o.applied then s.setField key none else s
  if o.threw then s
  else s.countDelete (if hit then 1 else 0) (if hit then 0 else 1) o.msecs

def hashOp (o : StatKey → HashReply) (op : HashOp) : Monitor :=
  match op with
  | .increment key n => s.incrementHash (o key) key n
  | .put key => s.putHash (o key) key

def writeOps : List HashOp :=
  if s.stat .writes ≠ 0 then
    [.increment .writes (s.stat .writes), .increment .writeMsecs (s.stat .writeMsecs),
      .put .writeMsecsAvg]
  else []

/-- The operations for hits and misses, their time, and the ratio and average made of them. -/
def hitOps (hits misses msecs ratio avg : StatKey) : List HashOp :=
  if s.stat hits ≠ 0 ∨ s.stat misses ≠ 0 then
    [.increment hits (s.stat hits), .increment misses (s.stat misses),
      .increment msecs (s.stat msecs), .put ratio, .put avg]
  else []

def readOps : List HashOp := s.hitOps .readHits .readMisses .readMsecs .readHitRatio .readMsecsAvg

def deleteOps : List HashOp :=
  s.hitOps .deleteHits .deleteMisses .deleteMsecs .deleteHitRatio .deleteMsecsAvg

def flushOps : List HashOp := s.writeOps ++ s.readOps ++ s.deleteOps

def zeroed : Monitor :=
  { s with stat := fun key =>
      if key ∈ [StatKey.writes, .writeMsecs, .readHits, .readMisses, .readMsecs, .deleteHits,
        .deleteMisses, .deleteMsecs] then 0 else s.stat key }

def updateRegionStats (o : StatKey → HashReply) : Monitor :=
  s.flushOps.foldl (fun s op => s.hashOp o op) s.zeroed

def resetKey (o : StatKey → HashReply) (key : StatKey) : Monitor :=
  removeHash { s with stat := Function.update s.stat key 0 } (o key) key

def reset (o : StatKey → HashReply) : Monitor := StatKey.all.foldl (fun s key => s.resetKey o key) s

end Model

end Monitor

/-- The monitor, and the number of operations of each kind since the last reset. -/
structure Traffic where
  monitor : Monitor
  since : StatKey → ℤ

inductive TrafficStep where
  | read (hits misses : ℕ) (msecs : ℤ)
  | write (msecs : ℤ)
  | delete (hits misses : ℕ) (msecs : ℤ)
  | flush (o : StatKey → HashReply)
  | reset (o : StatKey → HashReply)

namespace Traffic

def counters : List StatKey := [.readHits, .readMisses, .writes, .deleteHits, .deleteMisses]

def done : TrafficStep → StatKey → ℤ
  | .read hits misses _, key =>
    if key = .readHits then hits else if key = .readMisses then misses else 0
  | .write _, key => if key = .writes then 1 else 0
  | .delete hits misses _, key =>
    if key = .deleteHits then hits else if key = .deleteMisses then misses else 0
  | _, _ => 0

def step (t : Traffic) (a : TrafficStep) : Traffic :=
  match a with
  | .read hits misses msecs => ⟨t.monitor.countRead hits misses msecs, t.since + done a⟩
  | .write msecs => ⟨t.monitor.countWrite msecs, t.since + done a⟩
  | .delete hits misses msecs => ⟨t.monitor.countDelete hits misses msecs, t.since + done a⟩
  | .flush o => ⟨t.monitor.updateRegionStats o, t.since⟩
  | .reset o => ⟨t.monitor.reset o, 0⟩

end Traffic

namespace Monitor

open Traffic (counters)

variable {s : Monitor} {o : StatKey → HashReply} {k : StatKey} {key : StatKey} {op : HashOp}

def count (s : Monitor) (k : StatKey) : ℤ := (s.published k).getD 0 + s.stat k

theorem count_add (key : StatKey) (n : ℤ) :
    (s.add key n).count k = s.count k + if k = key then n else 0 := by
  by_cases h : k = key
  · subst h
    simp [add, count, add_assoc]
  · simp [add, count, h]

theorem count_setField (key : StatKey) (v : Option ℤ) :
    (s.setField key v).count k = if k = key then v.getD 0 + s.stat k else s.count k := by
  by_cases h : k = key
  · subst h
    simp [setField, count]
  · simp [setField, count, h]

theorem count_countWrite (hk : k ≠ .writeMsecs) (msecs : ℤ) :
    (s.countWrite msecs).count k = s.count k + if k = .writes then 1 else 0 := by
  rw [countWrite, count_add, count_add, if_neg hk, add_zero]

def gain (o : StatKey → HashReply) (k : StatKey) : HashOp → ℤ
  | .increment key n => if k = key ∧ (o key).applied = true then n else 0
  | .put _ => 0

def written (s : Monitor) (o : StatKey → HashReply) : HashOp → Monitor
  | .increment key n =>
    if (o key).applied then s.setField key (some ((s.published key).getD 0 + n)) else s
  | .put key => if (o key).reached then s.setField key (some 0) else s

theorem hashOp_eq (op : HashOp) : s.hashOp o op =
    if (o op.key).threw then s.written o op else (s.written o op).countWrite (o op.key).msecs := by
  cases op <;> rfl

theorem count_written (hput : ∀ key, op = .put key → k ≠ key) :
    (s.written o op).count k = s.count k + gain o k op := by
  cases op with
  | increment key n =>
    simp only [written, gain]
    by_cases happ : (o key).applied = true
    · rw [if_pos happ, count_setField]
      by_cases h : k = key
      · subst h
        simp only [happ, and_self, if_true, Option.getD_some, count]
        omega
      · simp [h]
    · simp [happ]
  | put key =>
    simp only [written, gain, add_zero]
    split_ifs
    · rw [count_setField, if_neg (hput key rfl)]
    · rfl

theorem count_hashOp (hk : k ≠ .writeMsecs) (hput : ∀ key, op = .put key → k ≠ key) :
    (s.hashOp o op).count k =
      s.count k + gain o k op + if k = .writes ∧ (o op.key).threw = false then 1 else 0 := by
  rw [hashOp_eq]
  by_cases hthrew : (o op.key).threw = true
  · rw [if_pos hthrew, count_written hput]
    simp [hthrew]
  · rw [if_neg hthrew, count_countWrite hk, count_written hput]
    simp [hthrew]

def returned (o : StatKey → HashReply) (ops : List HashOp) : ℕ :=
  ops.countP fun op => !(o op.key).threw

theorem count_foldl_hashOp (hk : k ≠ .writeMsecs) : ∀ {ops : List HashOp} {s : Monitor},
    (∀ op ∈ ops, ∀ key, op = .put key → k ≠ key) →
    (ops.foldl (fun s op => s.hashOp o op) s).count k =
      s.count k + (ops.map (gain o k)).sum + if k = .writes then (returned o ops : ℤ) else 0
  | [], s, _ => by simp [returned]
  | op :: ops, s, hput => by
    rw [foldl_cons, count_foldl_hashOp hk fun op' hop => hput op' (mem_cons_of_mem _ hop),
      count_hashOp hk (hput op mem_cons_self), map_cons, sum_cons, returned,
      returned, countP_cons]
    by_cases hw : k = .writes
    · by_cases hthrew : (o op.key).threw = true
      · simp only [hw, hthrew, if_true]
        simp
        omega
      · simp only [hw, hthrew, if_true]
        simp
        omega
    · simp only [hw, false_and, if_false]
      omega

theorem ne_msecs_of_mem_counters (hk : k ∈ counters) :
    k ≠ .writeMsecs ∧ k ≠ .readMsecs ∧ k ≠ .deleteMsecs := by
  simp only [counters, mem_cons, not_mem_nil, or_false] at hk
  rcases hk with rfl | rfl | rfl | rfl | rfl <;> simp

theorem ne_of_mem_counters (hk : k ∈ counters) :
    k ≠ .writeMsecs ∧ ∀ op ∈ s.flushOps, ∀ key, op = .put key → k ≠ key := by
  refine ⟨(ne_msecs_of_mem_counters hk).1, fun op hop key hkey => ?_⟩
  subst hkey
  have hput : key ∈ [StatKey.writeMsecsAvg, .readHitRatio, .readMsecsAvg, .deleteHitRatio,
      .deleteMsecsAvg] := by
    simp only [flushOps, writeOps, readOps, deleteOps, hitOps, mem_append] at hop
    rcases hop with (hop | hop) | hop
    all_goals
      split_ifs at hop
      · simp only [mem_cons, not_mem_nil, or_false, reduceCtorEq, HashOp.put.injEq, false_or] at hop
        rcases hop with rfl | rfl <;> decide
      · simp at hop
  rintro rfl
  simp only [counters, mem_cons, not_mem_nil, or_false] at hk hput
  rcases hk with rfl | rfl | rfl | rfl | rfl <;> simp at hput

theorem sum_gain_writeOps (hk : k ∈ counters) : (s.writeOps.map (gain o k)).sum =
    if k = .writes ∧ (o k).applied = true then s.stat k else 0 := by
  simp only [counters, mem_cons, not_mem_nil, or_false] at hk
  unfold writeOps
  split_ifs with h h' h'
  · obtain ⟨rfl, happ⟩ := h'
    simp [gain, happ]
  · rcases hk with rfl | rfl | rfl | rfl | rfl <;> simp_all [gain]
  · obtain ⟨rfl, -⟩ := h'
    simpa using (not_not.1 h).symm
  · rfl

theorem sum_gain_hitOps {hits misses msecs ratio avg : StatKey} (hne : hits ≠ misses)
    (hk : k ≠ msecs) : ((s.hitOps hits misses msecs ratio avg).map (gain o k)).sum =
    if (k = hits ∨ k = misses) ∧ (o k).applied = true then s.stat k else 0 := by
  unfold hitOps
  split_ifs with h h' h'
  · obtain ⟨rfl | rfl, happ⟩ := h'
    · simp [gain, happ, hne, hk]
    · simp [gain, happ, hne.symm, hk]
  · have hhits : ¬(k = hits ∧ (o hits).applied = true) := by
      rintro ⟨rfl, happ⟩
      exact h' ⟨.inl rfl, happ⟩
    have hmisses : ¬(k = misses ∧ (o misses).applied = true) := by
      rintro ⟨rfl, happ⟩
      exact h' ⟨.inr rfl, happ⟩
    simp only [gain, map_cons, map_nil, sum_cons, sum_nil, if_neg hhits,
      if_neg hmisses, hk, false_and, if_false, add_zero]
  · obtain ⟨hhits, hmisses⟩ := not_or.1 h
    obtain ⟨rfl | rfl, -⟩ := h'
    · simpa using (not_not.1 hhits).symm
    · simpa using (not_not.1 hmisses).symm
  · rfl

theorem sum_gain_flushOps (hk : k ∈ counters) :
    (s.flushOps.map (gain o k)).sum = if (o k).applied = true then s.stat k else 0 := by
  obtain ⟨-, hreads, hdeletes⟩ := ne_msecs_of_mem_counters hk
  rw [flushOps, map_append, map_append, sum_append, sum_append,
    sum_gain_writeOps hk, readOps, sum_gain_hitOps (by decide) hreads, deleteOps,
    sum_gain_hitOps (by decide) hdeletes]
  simp only [counters, mem_cons, not_mem_nil, or_false] at hk
  rcases hk with rfl | rfl | rfl | rfl | rfl <;> simp

theorem count_zeroed (hk : k ∈ counters) : s.zeroed.count k = (s.published k).getD 0 := by
  have hmem : k ∈ [StatKey.writes, .writeMsecs, .readHits, .readMisses, .readMsecs, .deleteHits,
      .deleteMisses, .deleteMsecs] := by
    simp only [counters, mem_cons, not_mem_nil, or_false] at hk
    rcases hk with rfl | rfl | rfl | rfl | rfl <;> simp
  simp only [count, zeroed, if_pos hmem, add_zero]

theorem count_updateRegionStats (hk : k ∈ counters) :
    (s.updateRegionStats o).count k = s.count k - (if (o k).applied = true then 0 else s.stat k) +
      if k = .writes then (returned o s.flushOps : ℤ) else 0 := by
  obtain ⟨hmsecs, hput⟩ := ne_of_mem_counters (s := s) hk
  rw [updateRegionStats, count_foldl_hashOp hmsecs hput, count_zeroed hk, sum_gain_flushOps hk,
    count]
  split_ifs <;> omega

def counted (s : Monitor) (o : StatKey → HashReply) (k key : StatKey) : Bool :=
  !(o key).threw && (k = .deleteHits && (s.published key).isSome ||
    k = .deleteMisses && (s.published key).isNone)

section

variable (hk : k ≠ .deleteMsecs)
include hk

theorem stat_countDelete (hits misses : ℕ) (msecs : ℤ) :
    (s.countDelete hits misses msecs).stat k = s.stat k +
      (if k = .deleteHits then (hits : ℤ) else 0) +
        if k = .deleteMisses then (misses : ℤ) else 0 := by
  simp only [countDelete, add, Function.update_apply, hk, if_false]
  split_ifs <;> simp_all

theorem stat_removeHash (key : StatKey) :
    (s.removeHash (o key) key).stat k = s.stat k + if s.counted o k key then 1 else 0 := by
  have hstat : (if (o key).applied then s.setField key none else s).stat k = s.stat k := by
    split_ifs <;> rfl
  simp only [removeHash, counted]
  by_cases hthrew : (o key).threw = true
  · simp [hthrew, hstat]
  · rw [if_neg hthrew, stat_countDelete hk, hstat]
    by_cases hpub : s.published key = none
    · by_cases h : k = .deleteMisses
      · simp [h, hthrew, hpub]
      · simp [h, hpub]
    · have hsome : (s.published key).isSome = true := Option.isSome_iff_ne_none.2 hpub
      by_cases h : k = .deleteHits
      · simp [h, hthrew, hsome]
      · simp [h, hpub, hsome]

theorem stat_resetKey (key : StatKey) : (s.resetKey o key).stat k =
    (if k = key then 0 else s.stat k) + if s.counted o k key then 1 else 0 := by
  rw [resetKey, stat_removeHash hk]
  simp only [Function.update_apply]
  rfl

end

theorem published_resetKey (key : StatKey) : (s.resetKey o key).published k =
    if k = key ∧ (o k).applied = true then none else s.published k := by
  have hcount : ∀ (t : Monitor) hits misses msecs,
      (t.countDelete hits misses msecs).published = t.published := fun _ _ _ _ => rfl
  simp only [resetKey, removeHash]
  by_cases h : k = key
  · subst h
    split_ifs <;> simp_all [setField]
  · split_ifs <;> simp_all [setField]

theorem counted_congr {s' : Monitor} (h : s'.published key = s.published key) :
    s'.counted o k key = s.counted o k key := by
  rw [counted, counted, h]

theorem published_foldl_resetKey : ∀ {keys : List StatKey} {s : Monitor},
    (keys.foldl (fun s key => s.resetKey o key) s).published k =
      if k ∈ keys ∧ (o k).applied = true then none else s.published k
  | [], s => by simp
  | key :: keys, s => by
    rw [foldl_cons, published_foldl_resetKey, published_resetKey]
    by_cases happ : (o k).applied = true
    · by_cases hkey : k = key
      · subst hkey
        simp [happ]
      · simp [happ, hkey]
    · simp [happ]

theorem stat_foldl_resetKey (hk : k ≠ .deleteMsecs) : ∀ {keys : List StatKey} {s : Monitor},
    keys.Nodup → k ∉ keys → (keys.foldl (fun s key => s.resetKey o key) s).stat k =
      s.stat k + keys.countP (s.counted o k)
  | [], s, _, _ => by simp
  | key :: keys, s, hn, hmem => by
    obtain ⟨hkey, hn⟩ := nodup_cons.1 hn
    obtain ⟨hne, hmem⟩ := not_or.1 (mt mem_cons.2 hmem)
    have hcongr : keys.countP ((s.resetKey o key).counted o k) = keys.countP (s.counted o k) := by
      refine countP_congr fun key' hkey' => ?_
      have hpub : (s.resetKey o key).published key' = s.published key' := by
        rw [published_resetKey, if_neg]
        rintro ⟨rfl, -⟩
        exact hkey hkey'
      rw [counted_congr hpub]
    rw [foldl_cons, stat_foldl_resetKey hk hn hmem, hcongr, stat_resetKey hk, if_neg hne,
      countP_cons]
    split_ifs <;> push_cast <;> omega

def fromKey (k : StatKey) : List StatKey := StatKey.all.dropWhile (· ≠ k)

theorem nodup_all : StatKey.all.Nodup := by decide

theorem stat_reset (hk : k ∈ counters) :
    (s.reset o).stat k = ((fromKey k).countP (s.counted o k) : ℤ) := by
  obtain ⟨-, -, hmsecs⟩ := ne_msecs_of_mem_counters hk
  obtain ⟨pre, post, hall, hfrom⟩ : ∃ pre post, StatKey.all = pre ++ k :: post ∧
      fromKey k = k :: post := by
    refine ⟨StatKey.all.takeWhile (· ≠ k), (fromKey k).tail, ?_⟩
    simp only [counters, mem_cons, not_mem_nil, or_false] at hk
    rcases hk with rfl | rfl | rfl | rfl | rfl <;> exact ⟨rfl, rfl⟩
  have hnodup := nodup_all
  rw [hall, nodup_append, nodup_cons] at hnodup
  obtain ⟨-, ⟨hpost, hn⟩, hdisj⟩ := hnodup
  set s₁ := pre.foldl (fun s key => s.resetKey o key) s with hs₁
  have hpub₁ : ∀ key ∈ k :: post, s₁.published key = s.published key := by
    intro key hkey
    rw [hs₁, published_foldl_resetKey, if_neg]
    rintro ⟨hpre, -⟩
    exact hdisj key hpre key hkey rfl
  have hpub₂ : ∀ key ∈ post, (s₁.resetKey o k).published key = s.published key := by
    intro key hkey
    rw [published_resetKey, if_neg, hpub₁ key (mem_cons_of_mem k hkey)]
    rintro ⟨rfl, -⟩
    exact hpost hkey
  have hcount : post.countP ((s₁.resetKey o k).counted o k) = post.countP (s.counted o k) :=
    countP_congr fun key hkey => by rw [counted_congr (hpub₂ key hkey)]
  rw [reset, hall, foldl_append, ← hs₁, foldl_cons, stat_foldl_resetKey hmsecs hn hpost,
    hcount, stat_resetKey hmsecs, if_pos rfl, counted_congr (hpub₁ k mem_cons_self), hfrom,
    countP_cons]
  split_ifs <;> push_cast <;> omega

theorem count_reset (hk : k ∈ counters) : (s.reset o).count k =
    (if (o k).applied = true then 0 else (s.published k).getD 0) +
      ((fromKey k).countP (s.counted o k) : ℤ) := by
  have hall : k ∈ StatKey.all := by cases k <;> decide
  rw [count, stat_reset hk, reset, published_foldl_resetKey]
  by_cases happ : (o k).applied = true
  · simp [happ, hall]
  · simp [happ]

/-- No counter is negative, neither the one kept nor the one published. -/
def Nonneg (s : Monitor) : Prop := ∀ k ∈ counters, 0 ≤ s.stat k ∧ 0 ≤ (s.published k).getD 0

section

variable (h : s.Nonneg)
include h

theorem Nonneg.add {n : ℤ} (hn : key ∈ counters → 0 ≤ n) : (s.add key n).Nonneg := by
  intro k hk
  refine ⟨?_, (h k hk).2⟩
  by_cases hkey : k = key
  · subst hkey
    simp only [Monitor.add, Function.update_self]
    exact add_nonneg (h k hk).1 (hn hk)
  · simp only [Monitor.add, Function.update_of_ne hkey]
    exact (h k hk).1

theorem Nonneg.setField {v : Option ℤ}
    (hv : key ∈ counters → 0 ≤ v.getD 0) : (s.setField key v).Nonneg := by
  intro k hk
  refine ⟨(h k hk).1, ?_⟩
  by_cases hkey : k = key
  · subst hkey
    simpa [Monitor.setField] using hv hk
  · simpa [Monitor.setField, hkey] using (h k hk).2

theorem Nonneg.countWrite (msecs : ℤ) : (s.countWrite msecs).Nonneg :=
  (h.add (by simp)).add (by simp [counters])

theorem Nonneg.countRead (hits misses : ℕ) (msecs : ℤ) :
    (s.countRead hits misses msecs).Nonneg :=
  ((h.add (by simp)).add (by simp)).add (by simp [counters])

theorem Nonneg.countDelete (hits misses : ℕ) (msecs : ℤ) :
    (s.countDelete hits misses msecs).Nonneg :=
  ((h.add (by simp)).add (by simp)).add (by simp [counters])

theorem Nonneg.flushOps {n : ℤ}
    (hop : HashOp.increment key n ∈ s.flushOps) (hkey : key ∈ counters) : 0 ≤ n := by
  have hn : n = s.stat key := by
    simp only [Monitor.flushOps, writeOps, readOps, deleteOps, hitOps, mem_append] at hop
    rcases hop with (hop | hop) | hop
    · split_ifs at hop
      · simp only [mem_cons, not_mem_nil, or_false, HashOp.increment.injEq, reduceCtorEq] at hop
        rcases hop with ⟨rfl, hn⟩ | ⟨rfl, hn⟩ <;> exact hn
      · simp at hop
    all_goals
      split_ifs at hop
      · simp only [mem_cons, not_mem_nil, or_false, HashOp.increment.injEq, reduceCtorEq] at hop
        rcases hop with ⟨rfl, hn⟩ | ⟨rfl, hn⟩ | ⟨rfl, hn⟩ <;> exact hn
      · simp at hop
  exact hn ▸ (h key hkey).1

theorem Nonneg.written
    (hop : ∀ key n, op = .increment key n → key ∈ counters → 0 ≤ n) : (s.written o op).Nonneg := by
  cases op with
  | increment key n =>
    simp only [Monitor.written]
    split_ifs
    · exact h.setField fun hkey => add_nonneg (h key hkey).2 (hop key n rfl hkey)
    · exact h
  | put key =>
    simp only [Monitor.written]
    split_ifs
    · exact h.setField (by simp)
    · exact h

theorem Nonneg.hashOp
    (hop : ∀ key n, op = .increment key n → key ∈ counters → 0 ≤ n) : (s.hashOp o op).Nonneg := by
  rw [hashOp_eq]
  split_ifs
  · exact h.written hop
  · exact (h.written hop).countWrite _

end

theorem Nonneg.foldl_hashOp : ∀ {ops : List HashOp} {s : Monitor}, s.Nonneg →
    (∀ key n, HashOp.increment key n ∈ ops → key ∈ counters → 0 ≤ n) →
    (ops.foldl (fun s op => s.hashOp o op) s).Nonneg
  | [], _, h, _ => h
  | op :: ops, s, h, hops => by
    have hstep : (s.hashOp o op).Nonneg := by
      refine h.hashOp fun key n hop => hops key n ?_
      rw [hop]
      exact mem_cons_self
    exact hstep.foldl_hashOp fun key n hop => hops key n (mem_cons_of_mem _ hop)

theorem Nonneg.zeroed (h : s.Nonneg) : s.zeroed.Nonneg := by
  intro k hk
  refine ⟨?_, (h k hk).2⟩
  simp only [Monitor.zeroed]
  split_ifs
  · exact le_rfl
  · exact (h k hk).1

theorem Nonneg.updateRegionStats (h : s.Nonneg) : (s.updateRegionStats o).Nonneg :=
  h.zeroed.foldl_hashOp fun _ _ hop hkey => h.flushOps hop hkey

theorem Nonneg.reset (h : s.Nonneg) : (s.reset o).Nonneg := by
  intro k hk
  rw [stat_reset hk, Monitor.reset, published_foldl_resetKey]
  refine ⟨by omega, ?_⟩
  split_ifs
  · simp
  · exact (h k hk).2

def FlushExact (s : Monitor) (o : StatKey → HashReply) : Prop :=
  (∀ k ∈ counters, k ≠ .writes → (o k).applied = true ∨ s.stat k = 0) ∧
    (returned o s.flushOps : ℤ) = if (o .writes).applied = true then 0 else s.stat .writes

/-- A reset removes every count that is not zero, the deletion of the first field for deletions is
not counted as a hit, and none of the deletions after it is counted. -/
def ResetExact (s : Monitor) (o : StatKey → HashReply) : Prop :=
  (∀ k ∈ counters, (o k).applied = true ∨ (s.published k).getD 0 = 0) ∧
    ((o .deleteHits).threw = true ∨ s.published .deleteHits = none) ∧
    ∀ key ∈ fromKey .deleteMisses, (o key).threw = true

theorem flushExact_iff : s.FlushExact o ↔
    ∀ k ∈ counters, (s.updateRegionStats o).count k = s.count k := by
  have hwrites : StatKey.writes ∈ counters := by decide
  constructor
  · rintro ⟨hother, hw⟩ k hk
    rw [count_updateRegionStats hk]
    by_cases hkw : k = .writes
    · subst hkw
      rw [if_pos rfl, hw]
      omega
    · rcases hother k hk hkw with happ | hzero
      · simp [happ, hkw]
      · simp [hzero, hkw]
  · intro h
    refine ⟨fun k hk hkw => ?_, ?_⟩
    · have hcount := h k hk
      rw [count_updateRegionStats hk, if_neg hkw] at hcount
      by_cases happ : (o k).applied = true
      · exact .inl happ
      · rw [if_neg happ] at hcount
        exact .inr (by omega)
    · have hcount := h _ hwrites
      rw [count_updateRegionStats hwrites, if_pos rfl] at hcount
      omega

theorem countP_counted_eq_zero : (fromKey k).countP (s.counted o k) = 0 ↔
    (k = .deleteHits → ∀ key ∈ fromKey k, (o key).threw = true ∨ s.published key = none) ∧
      (k = .deleteMisses → ∀ key ∈ fromKey k, (o key).threw = true ∨ s.published key ≠ none) := by
  rw [countP_eq_zero]
  by_cases hhits : k = .deleteHits
  · have hmisses : k ≠ .deleteMisses := by simp [hhits]
    simp only [counted, hhits, decide_true]
    simp [or_iff_not_imp_left]
  · by_cases hmisses : k = .deleteMisses
    · simp only [counted, hmisses]
      simp [or_iff_not_imp_left, Option.ne_none_iff_isSome]
    · simp [counted, hhits, hmisses]

theorem resetExact_iff (h : s.Nonneg) : s.ResetExact o ↔
    ∀ k ∈ counters, (s.reset o).count k = 0 := by
  have hfrom : fromKey .deleteHits = .deleteHits :: fromKey .deleteMisses := rfl
  have hcount : ∀ k ∈ counters, (s.reset o).count k = 0 ↔
      ((o k).applied = true ∨ (s.published k).getD 0 = 0) ∧
        (fromKey k).countP (s.counted o k) = 0 := by
    intro k hk
    have hpub := (h k hk).2
    rw [count_reset hk]
    by_cases happ : (o k).applied = true
    · simp [happ]
    · simp only [happ, Bool.false_eq_true, if_false, false_or]
      omega
  rw [forall₂_congr hcount, ResetExact]
  constructor
  · rintro ⟨hpub, hfirst, hlater⟩ k hk
    refine ⟨hpub k hk, countP_counted_eq_zero.2 ⟨?_, ?_⟩⟩
    · rintro rfl key hkey
      rw [hfrom, mem_cons] at hkey
      rcases hkey with rfl | hkey
      · exact hfirst
      · exact .inl (hlater key hkey)
    · rintro rfl key hkey
      exact .inl (hlater key hkey)
  · intro hall
    have hhits := (countP_counted_eq_zero.1 (hall .deleteHits (by decide)).2).1 rfl
    have hmisses := (countP_counted_eq_zero.1 (hall .deleteMisses (by decide)).2).2 rfl
    rw [hfrom] at hhits
    refine ⟨fun k hk => (hall k hk).1, hhits _ mem_cons_self, fun key hkey => ?_⟩
    rcases hhits key (mem_cons_of_mem _ hkey) with hthrew | hnone
    · exact hthrew
    · exact (hmisses key hkey).resolve_right fun hsome => hsome hnone

end Monitor

namespace Traffic

/-- What is published and pending is the number of operations since the last reset. -/
def Exact (t : Traffic) : Prop := ∀ k ∈ counters, t.monitor.count k = t.since k

def StepOk (t : Traffic) : TrafficStep → Prop
  | .flush o => t.monitor.FlushExact o
  | .reset o => t.monitor.ResetExact o
  | _ => True

variable {t : Traffic}

theorem count_done {k : StatKey} (hk : k ∈ counters) (a : TrafficStep)
    (ha : ∀ o, a ≠ .flush o ∧ a ≠ .reset o) :
    (step t a).monitor.count k = t.monitor.count k + done a k ∧
      (step t a).since k = t.since k + done a k := by
  simp only [counters, mem_cons, not_mem_nil, or_false] at hk
  cases a with
  | read hits misses msecs =>
    refine ⟨?_, rfl⟩
    simp only [step, Monitor.countRead, Monitor.count_add, done]
    rcases hk with rfl | rfl | rfl | rfl | rfl <;> simp
  | write msecs =>
    refine ⟨?_, rfl⟩
    simp only [step, Monitor.countWrite, Monitor.count_add, done]
    rcases hk with rfl | rfl | rfl | rfl | rfl <;> simp
  | delete hits misses msecs =>
    refine ⟨?_, rfl⟩
    simp only [step, Monitor.countDelete, Monitor.count_add, done]
    rcases hk with rfl | rfl | rfl | rfl | rfl <;> simp
  | flush o => exact absurd rfl (ha o).1
  | reset o => exact absurd rfl (ha o).2

theorem exact_done (h : t.Exact) (a : TrafficStep) (ha : ∀ o, a ≠ .flush o ∧ a ≠ .reset o) :
    (step t a).Exact := by
  intro k hk
  obtain ⟨hcount, hsince⟩ := count_done (t := t) hk a ha
  rw [hcount, hsince, h k hk]

theorem nonneg_step (h : t.monitor.Nonneg) (a : TrafficStep) : (step t a).monitor.Nonneg := by
  cases a with
  | read hits misses msecs => exact h.countRead hits misses msecs
  | write msecs => exact h.countWrite msecs
  | delete hits misses msecs => exact h.countDelete hits misses msecs
  | flush o => exact h.updateRegionStats
  | reset o => exact h.reset

theorem exact_step_iff (hnn : t.monitor.Nonneg) (h : t.Exact) (a : TrafficStep) :
    (step t a).Exact ↔ StepOk t a := by
  cases a with
  | flush o =>
    rw [StepOk, Monitor.flushExact_iff]
    refine forall₂_congr fun k hk => ?_
    show (t.monitor.updateRegionStats o).count k = t.since k ↔ _
    rw [h k hk]
  | reset o =>
    rw [StepOk, Monitor.resetExact_iff hnn]
    rfl
  | read hits misses msecs => exact iff_of_true (exact_done h _ (by simp)) trivial
  | write msecs => exact iff_of_true (exact_done h _ (by simp)) trivial
  | delete hits misses msecs => exact iff_of_true (exact_done h _ (by simp)) trivial

/-- The statistics are exact all along a run exactly if each of its flushes and resets is. -/
theorem exact_iff (hnn : t.monitor.Nonneg) (h : t.Exact) (as : List TrafficStep) :
    (∀ n, (run step t (as.take n)).Exact) ↔ RunOk step StepOk t as :=
  (runOk_iff (I := fun t => t.monitor.Nonneg) (P := Exact) (fun _ a ht => nonneg_step ht a)
    (fun _ a ht hex => exact_step_iff ht hex a) hnn h).symm

def idle : Traffic := ⟨⟨fun _ => 0, fun _ => none⟩, 0⟩

def succeeds (_ : StatKey) : HashReply := { reached := true, threw := false }

def timesOut (_ : StatKey) : HashReply := { reached := true, threw := true }

def fails (_ : StatKey) : HashReply := { reached := false, threw := true }

theorem exact_idle : idle.Exact := fun _ _ => rfl

theorem nonneg_idle : idle.monitor.Nonneg := fun _ _ => ⟨le_rfl, le_rfl⟩

theorem exact_of_timesOut :
    (run step idle [.flush succeeds, .read 2 1 5, .write 3, .flush timesOut]).Exact := by
  refine (exact_iff nonneg_idle exact_idle
    [.flush succeeds, .read 2 1 5, .write 3, .flush timesOut]).2 ⟨?_, trivial, trivial, ?_,
      trivial⟩ 4
  · exact ⟨fun _ _ _ => .inr rfl, rfl⟩
  · exact ⟨fun _ _ _ => .inl rfl, rfl⟩

/-- A flush counts its own three operations as writes, a failed flush loses a hit, and a reset
counts the fields it does not find. -/
theorem not_exact_of_flush_or_reset :
    (let t := run step idle [.write 0, .flush succeeds]
     t.since .writes = 1 ∧ t.monitor.count .writes = 4) ∧
    (let t := run step idle [.read 1 0 0, .flush fails]
     t.since .readHits = 1 ∧ t.monitor.count .readHits = 0) ∧
    (let t := run step idle [.reset succeeds]
     t.since .deleteMisses = 0 ∧ t.monitor.count .deleteMisses = 7) := by
  decide +kernel

end Traffic

end AciX
