import AciX.Redis

/-!
# The regions of the cache

`CacheClient` keeps the entries of a region under keys that start with cache name and region, with a
colon after each, and its statistics under one more such key. `AllStats` makes clients of the first
two parts of keys; of a region with a colon it makes one whose keys may be another's (`Nested`). All
other clients keep apart (`isolated_iff`).
-/

namespace AciX

open List

structure CacheClient where
  cacheName : Text
  cacheRegion : Text
  deriving DecidableEq

inductive SharedRegion where
  | default | preview | generalPurpose | visit | catalog | query | site

inductive SiteRegion where
  | report | reportType | siteCategoryByExternalID | order | orderByExternalID | siteSku | siteUser
  | userByExternalID

def SharedRegion.text : SharedRegion → Text
  | default => "Default".toList
  | preview => "Preview".toList
  | generalPurpose => "GeneralPurpose".toList
  | visit => "Visit".toList
  | catalog => "Catalog".toList
  | query => "Query".toList
  | site => "Site".toList

def SiteRegion.text : SiteRegion → Text
  | report => "Report".toList
  | reportType => "ReportType".toList
  | siteCategoryByExternalID => "SiteCategoryByExternalID".toList
  | order => "Order".toList
  | orderByExternalID => "OrderByExternalID".toList
  | siteSku => "SiteSku".toList
  | siteUser => "SiteUser".toList
  | userByExternalID => "UserByExternalID".toList

inductive StatKey where
  | readHits | readMisses | readHitRatio | readMsecs | readMsecsAvg
  | deleteHits | deleteMisses | deleteHitRatio | deleteMsecs | deleteMsecsAvg
  | writes | writeMsecs | writeMsecsAvg
  deriving DecidableEq

namespace StatKey

def text : StatKey → Text
  | readHits => "ReadHits".toList
  | readMisses => "ReadMisses".toList
  | readHitRatio => "ReadHitRatio".toList
  | readMsecs => "ReadMsecsTotal".toList
  | readMsecsAvg => "ReadMsecsAvg".toList
  | deleteHits => "DeleteHits".toList
  | deleteMisses => "DeleteMisses".toList
  | deleteHitRatio => "DeleteHitRatio".toList
  | deleteMsecs => "DeleteMsecsTotal".toList
  | deleteMsecsAvg => "DeleteMsecsAvg".toList
  | writes => "Writes".toList
  | writeMsecs => "WriteMsecsTotal".toList
  | writeMsecsAvg => "WriteMsecsAvg".toList

def all : List StatKey :=
  [readHits, readMisses, readHitRatio, readMsecs, readMsecsAvg, deleteHits, deleteMisses,
    deleteHitRatio, deleteMsecs, deleteMsecsAvg, writes, writeMsecs, writeMsecsAvg]

end StatKey

inductive EntityOp where
  | get (userKey : Text)
  | getMany (userKeys : List Text)
  | put (userKey value : Text)
  | remove (userKey : Text)
  | removeMany (userKeys : List Text)

def EntityOp.userKeys : EntityOp → List Text
  | get k => [k]
  | getMany ks => ks
  | put k _ => [k]
  | remove k => [k]
  | removeMany ks => ks

namespace CacheClient

variable (n : UInt8) (r : SharedRegion) (k : Text)

def acix : Text := "ACIX".toList

def siteText (siteID : UInt8) : Text := "Site_".toList ++ Nat.toDigits 10 siteID.toNat

def statsUserKey : Text := "Stats".toList

section Keys

variable (c : CacheClient)

def keyPrefix : Text := c.cacheName ++ ':' :: (c.cacheRegion ++ [':'])

def redisKey (userKey : Text) : Text := c.keyPrefix ++ userKey

def statsKey : Text := c.redisKey statsUserKey

def exec (r : Redis) : EntityOp → Redis × List (Option Text)
  | .get k => (r, [r.stringGet (c.redisKey k)])
  | .getMany ks => (r, ks.map fun k => r.stringGet (c.redisKey k))
  | .put k v => (r.set (c.redisKey k) (.string v), [])
  | .remove k => (r.delete [c.redisKey k], [])
  | .removeMany ks => (r.delete (ks.map c.redisKey), [])

def flush (r : Redis) : Redis :=
  StatKey.all.foldl (fun r key => r.hashDelete c.statsKey key.text)
    (r.delete (r.scan (c.keyPrefix ++ ['*'])))

def ofKey (key : Text) : CacheClient :=
  ⟨(key.splitOn ':').getD 0 [], (key.splitOn ':').getD 1 []⟩

def statsPattern : Text := '*' :: ':' :: statsUserKey

def ofShared (r : SharedRegion) : CacheClient := ⟨acix, r.text⟩

def ofSite (siteID : UInt8) (r : SiteRegion) : CacheClient :=
  ⟨acix, siteText siteID ++ ':' :: r.text⟩

def listed (siteID : UInt8) : CacheClient := ⟨acix, siteText siteID⟩

inductive Created : CacheClient → Prop
  | shared (r : SharedRegion) : Created (ofShared r)
  | site (siteID : UInt8) (r : SiteRegion) : Created (ofSite siteID r)
  | allStats {c : CacheClient} {userKey : Text} (h : Created c)
      (hkey : glob statsPattern (c.redisKey userKey) = true) : Created (ofKey (c.redisKey userKey))

def Nested (c c' : CacheClient) : Prop := ∃ n r, c = listed n ∧ c' = ofSite n r

end Keys

theorem colon_notMem_acix : ':' ∉ acix := by decide

theorem colon_notMem_siteText : ':' ∉ siteText n := by
  intro h
  rcases mem_append.1 h with h | h
  · exact absurd h (by decide)
  · have hdigit := Nat.isDigit_of_mem_toDigits (by decide) (by decide) h
    exact absurd hdigit (by decide)

theorem colon_notMem_shared : ':' ∉ r.text := by
  cases r <;> decide

theorem colon_notMem_site (r : SiteRegion) : ':' ∉ r.text := by
  cases r <;> decide

theorem siteText_injective : Function.Injective siteText := by
  intro m n h
  have hdigits := append_cancel_left h
  have hnat := congrArg (Nat.ofDigitChars 10 · 0) hdigits
  simp only [Nat.ofDigitChars_ten_toDigits] at hnat
  exact UInt8.toNat_inj.1 hnat

theorem siteText_ne_shared : siteText n ≠ r.text := by
  intro h
  have htake := congrArg (List.take 5) h
  have hsite : List.take 5 (siteText n) = "Site_".toList :=
    take_left' (by decide)
  rw [hsite] at htake
  cases r <;> exact absurd htake (by decide)

theorem sharedText_injective : Function.Injective SharedRegion.text := by
  intro r r' h
  cases r <;> cases r' <;> first | rfl | exact absurd h (by decide)

theorem siteRegionText_injective : Function.Injective SiteRegion.text := by
  intro r r' h
  cases r <;> cases r' <;> first | rfl | exact absurd h (by decide)

theorem redisKey_eq (c : CacheClient) (k : Text) :
    c.redisKey k = c.cacheName ++ ':' :: (c.cacheRegion ++ ':' :: k) := by
  simp [redisKey, keyPrefix]

theorem ofKey_append {a s : Text} (ha : ':' ∉ a) (hs : ':' ∉ s) (k : Text) :
    ofKey (a ++ ':' :: (s ++ ':' :: k)) = ⟨a, s⟩ := by
  rw [ofKey, splitOn_append_cons_self_of_not_mem ha, splitOn_append_cons_self_of_not_mem hs]
  rfl

theorem ofKey_ofShared : ofKey ((ofShared r).redisKey k) = ofShared r := by
  rw [redisKey_eq]
  exact ofKey_append colon_notMem_acix (colon_notMem_shared r) k

theorem ofKey_listed : ofKey ((listed n).redisKey k) = listed n := by
  rw [redisKey_eq]
  exact ofKey_append colon_notMem_acix (colon_notMem_siteText n) k

theorem ofKey_ofSite (r : SiteRegion) (k : Text) : ofKey ((ofSite n r).redisKey k) = listed n := by
  have hkey : (ofSite n r).redisKey k = acix ++ ':' :: (siteText n ++ ':' :: (r.text ++ ':' :: k))
    := by
    rw [redisKey_eq]
    simp [ofSite]
  rw [hkey]
  exact ofKey_append colon_notMem_acix (colon_notMem_siteText n) _

theorem Created.cases {c : CacheClient} (h : c.Created) :
    (∃ r, c = ofShared r) ∨ (∃ n r, c = ofSite n r) ∨ ∃ n, c = listed n := by
  induction h with
  | shared r => exact .inl ⟨r, rfl⟩
  | site n r => exact .inr (.inl ⟨n, r, rfl⟩)
  | allStats _ _ ih =>
    rename_i userKey _ _
    rcases ih with ⟨r, rfl⟩ | ⟨n, r, rfl⟩ | ⟨n, rfl⟩
    · exact .inl ⟨r, ofKey_ofShared r userKey⟩
    · exact .inr (.inr ⟨n, ofKey_ofSite n r userKey⟩)
    · exact .inr (.inr ⟨n, ofKey_listed n userKey⟩)

section Disjoint

theorem sep_prefix_iff {s t u v : Text} (hs : ':' ∉ s) (ht : ':' ∉ t) :
    s ++ ':' :: u <+: t ++ ':' :: v ↔ s = t ∧ u <+: v := by
  constructor
  · rintro ⟨w, h⟩
    have hsplit := congrArg (List.splitOn ':') h
    rw [append_assoc, cons_append, splitOn_append_cons_self_of_not_mem hs,
      splitOn_append_cons_self_of_not_mem ht, List.cons.injEq] at hsplit
    obtain ⟨rfl, -⟩ := hsplit
    rw [append_assoc, append_cancel_left_eq, cons_append, List.cons.injEq] at h
    exact ⟨rfl, w, h.2⟩
  · rintro ⟨rfl, w, rfl⟩
    exact ⟨w, by simp⟩

theorem keyPrefix_ofShared (r : SharedRegion) :
    (ofShared r).keyPrefix = acix ++ ':' :: (r.text ++ ':' :: []) := rfl

theorem keyPrefix_listed (n : UInt8) :
    (listed n).keyPrefix = acix ++ ':' :: (siteText n ++ ':' :: []) := rfl

theorem keyPrefix_ofSite (n : UInt8) (r : SiteRegion) :
    (ofSite n r).keyPrefix = acix ++ ':' :: (siteText n ++ ':' :: (r.text ++ ':' :: [])) := by
  simp [keyPrefix, ofSite]

variable {c c' : CacheClient}

theorem keyPrefix_prefix_iff (hc : c.Created) (hc' : c'.Created) (hne : c ≠ c') :
    c.keyPrefix <+: c'.keyPrefix ↔ Nested c c' := by
  constructor
  · intro h
    rcases hc.cases with ⟨r, rfl⟩ | ⟨n, r, rfl⟩ | ⟨n, rfl⟩ <;>
      rcases hc'.cases with ⟨r', rfl⟩ | ⟨n', r', rfl⟩ | ⟨n', rfl⟩ <;>
      simp only [keyPrefix_ofShared, keyPrefix_listed, keyPrefix_ofSite,
        sep_prefix_iff colon_notMem_acix colon_notMem_acix,
        sep_prefix_iff (colon_notMem_shared _) (colon_notMem_shared _),
        sep_prefix_iff (colon_notMem_shared _) (colon_notMem_siteText _),
        sep_prefix_iff (colon_notMem_siteText _) (colon_notMem_shared _),
        sep_prefix_iff (colon_notMem_siteText _) (colon_notMem_siteText _),
        sep_prefix_iff (colon_notMem_site _) (colon_notMem_site _), true_and] at h
    · exact absurd (congrArg ofShared (sharedText_injective h.1)) hne
    · exact absurd h.1.symm (siteText_ne_shared _ _)
    · exact absurd h.1.symm (siteText_ne_shared _ _)
    · exact absurd h.1 (siteText_ne_shared _ _)
    · obtain ⟨hn, hr, -⟩ := h
      rw [siteText_injective hn, siteRegionText_injective hr] at hne
      exact absurd rfl hne
    · simp at h
    · exact absurd h.1 (siteText_ne_shared _ _)
    · obtain ⟨hn, -⟩ := h
      exact ⟨n, r', rfl, by rw [siteText_injective hn]⟩
    · exact absurd (congrArg listed (siteText_injective h.1)) hne
  · rintro ⟨n, r, rfl, rfl⟩
    rw [keyPrefix_listed, keyPrefix_ofSite, sep_prefix_iff colon_notMem_acix colon_notMem_acix,
      sep_prefix_iff (colon_notMem_siteText _) (colon_notMem_siteText _)]
    exact ⟨rfl, rfl, nil_prefix⟩

theorem keyPrefix_prefix_redisKey (c : CacheClient) (k : Text) : c.keyPrefix <+: c.redisKey k :=
  prefix_append _ _

theorem redisKey_ne_iff : (∀ k k', c.redisKey k ≠ c'.redisKey k') ↔
    ¬ c.keyPrefix <+: c'.keyPrefix ∧ ¬ c'.keyPrefix <+: c.keyPrefix := by
  constructor
  · intro h
    refine ⟨?_, ?_⟩
    · rintro ⟨w, hw⟩
      exact h w [] (by rw [redisKey, redisKey, hw, append_nil])
    · rintro ⟨w, hw⟩
      exact h [] w (by rw [redisKey, redisKey, hw, append_nil])
  · rintro ⟨h, h'⟩ k k' heq
    have hk' : c'.keyPrefix <+: c.redisKey k := heq ▸ c'.keyPrefix_prefix_redisKey k'
    rcases prefix_or_prefix_of_prefix (c.keyPrefix_prefix_redisKey k) hk' with hp | hp
    · exact h hp
    · exact h' hp

end Disjoint

section Flush

theorem globPlain_digits (n : ℕ) : GlobPlain (Nat.toDigits 10 n) := by
  intro d hd
  have hdigit := Nat.isDigit_of_mem_toDigits (by decide) (by decide) hd
  refine ⟨?_, ?_, ?_, ?_⟩ <;>
  · rintro rfl
    exact absurd hdigit (by decide)

theorem Created.globPlain {c : CacheClient} (h : c.Created) : GlobPlain c.keyPrefix := by
  have hacix : GlobPlain (acix ++ [':']) := by decide
  have hsite : ∀ n, GlobPlain (siteText n ++ [':']) := fun n =>
    (GlobPlain.append (by decide) (globPlain_digits _)).append (by decide)
  rcases h.cases with ⟨r, rfl⟩ | ⟨n, r, rfl⟩ | ⟨n, rfl⟩
  · have hr : GlobPlain (r.text ++ [':']) := by cases r <;> decide
    simpa [keyPrefix, ofShared] using hacix.append hr
  · have hr : GlobPlain (r.text ++ [':']) := by cases r <;> decide
    simpa [keyPrefix, ofSite] using (hacix.append (hsite n)).append hr
  · simpa [keyPrefix, listed] using hacix.append (hsite n)

variable {c c' : CacheClient}

theorem foldl_hashDelete_of_none {k : Text} : ∀ {keys : List StatKey} {r : Redis},
    r.entry k = none →
    keys.foldl (fun r key => r.hashDelete k key.text) r = r
  | [], _, _ => rfl
  | key :: keys, r, h => by
    rw [foldl_cons, Redis.hashDelete_of_none h]
    exact foldl_hashDelete_of_none h

theorem entry_flush (hc : c.Created) (r : Redis) (x : Text) :
    (c.flush r).entry x = if c.keyPrefix <+: x then none else r.entry x := by
  have hdelete : ∀ y, (r.delete (r.scan (c.keyPrefix ++ ['*']))).entry y =
      if c.keyPrefix <+: y then none else r.entry y := by
    intro y
    simp only [Redis.entry_delete, Redis.mem_scan, glob_append_star hc.globPlain]
    by_cases hy : c.keyPrefix <+: y
    · by_cases hnone : r.entry y = none
      · simp [hnone]
      · simp [hnone, hy]
    · simp [hy]
  have hstats : (r.delete (r.scan (c.keyPrefix ++ ['*']))).entry c.statsKey = none := by
    rw [hdelete]
    exact if_pos (c.keyPrefix_prefix_redisKey statsUserKey)
  rw [flush, foldl_hashDelete_of_none hstats]
  exact hdelete x

theorem entry_flush_other_iff (hc : c.Created) :
    (∀ r k, (c.flush r).entry (c'.redisKey k) = r.entry (c'.redisKey k)) ↔
      ∀ k k', c.redisKey k ≠ c'.redisKey k' := by
  constructor
  · intro h k k' heq
    have hk := h (Redis.empty.set (c'.redisKey k') (.string [])) k'
    rw [entry_flush hc, ← heq, if_pos (c.keyPrefix_prefix_redisKey k)] at hk
    simp at hk
  · intro h r k
    rw [entry_flush hc, if_neg]
    rintro ⟨w, hw⟩
    exact h w k hw

end Flush

section Statistics

variable {c c' : CacheClient}

/-- The operation neither reads nor changes the key `x`. -/
def LeavesAlone (c : CacheClient) (op : EntityOp) (x : Text) : Prop :=
  ∀ r r' : Redis, (∀ y, y ≠ x → r.entry y = r'.entry y) →
    (c.exec r op).2 = (c.exec r' op).2 ∧ (c.exec r op).1.entry x = r.entry x ∧
      ∀ y, y ≠ x → (c.exec r op).1.entry y = (c.exec r' op).1.entry y

theorem redisKey_inj {k k' : Text} : c.redisKey k = c.redisKey k' ↔ k = k' :=
  append_right_inj c.keyPrefix

theorem stringGet_congr {r r' : Redis} {x k : Text} (h : ∀ y, y ≠ x → r.entry y = r'.entry y)
    (hk : k ≠ x) : r.stringGet k = r'.stringGet k := by
  rw [Redis.stringGet, Redis.stringGet, h k hk]

theorem leavesAlone_of_notMem {op : EntityOp} {k : Text} (hk : k ∉ op.userKeys) :
    c.LeavesAlone op (c.redisKey k) := by
  intro r r' h
  cases op with
  | get k' =>
    have hne : c.redisKey k' ≠ c.redisKey k := by simpa [EntityOp.userKeys, redisKey_inj, eq_comm]
      using hk
    exact ⟨by simp only [exec, stringGet_congr h hne], rfl, h⟩
  | getMany ks =>
    refine ⟨map_congr_left fun k' hk' => stringGet_congr h ?_, rfl, h⟩
    rw [ne_eq, redisKey_inj]
    rintro rfl
    exact hk hk'
  | put k' v =>
    have hne : c.redisKey k ≠ c.redisKey k' := by simpa [EntityOp.userKeys, redisKey_inj] using hk
    refine ⟨rfl, Function.update_of_ne hne _ _, fun y hy => ?_⟩
    by_cases hy' : y = c.redisKey k'
    · simp [exec, hy']
    · simp [exec, hy', h y hy]
  | remove k' =>
    have hne : c.redisKey k ≠ c.redisKey k' := by simpa [EntityOp.userKeys, redisKey_inj] using hk
    refine ⟨rfl, by simp [exec, hne], fun y hy => ?_⟩
    simp [exec, h y hy]
  | removeMany ks =>
    have hne : c.redisKey k ∉ ks.map c.redisKey := by
      simpa [EntityOp.userKeys, redisKey_inj] using hk
    refine ⟨rfl, if_neg hne, fun y hy => ?_⟩
    simp only [exec, Redis.entry_delete, h y hy]

theorem leavesAlone_iff {op : EntityOp} {k : Text} :
    c.LeavesAlone op (c.redisKey k) ↔ k ∉ op.userKeys := by
  refine ⟨fun h hk => ?_, leavesAlone_of_notMem⟩
  set x := c.redisKey k with hx
  have hother : ∀ y, y ≠ x → (Redis.empty.set x (.string [])).entry y = Redis.empty.entry y :=
    fun y hy => Function.update_of_ne hy _ _
  obtain ⟨hres, hkept, -⟩ := h _ _ hother
  obtain ⟨-, hkept', -⟩ := h Redis.empty Redis.empty fun _ _ => rfl
  have hset : (Redis.empty.set x (.string [])).entry x = some (.string []) := by simp
  cases op with
  | get k' =>
    obtain rfl := mem_singleton.1 hk
    simp [exec, Redis.stringGet, Redis.empty, ← hx] at hres
  | getMany ks =>
    have hget := map_inj_left.1 hres k hk
    simp [Redis.stringGet, Redis.empty, ← hx] at hget
  | put k' v =>
    obtain rfl := mem_singleton.1 hk
    simp [exec, Redis.empty, ← hx] at hkept'
  | remove k' =>
    obtain rfl := mem_singleton.1 hk
    simp [exec, ← hx] at hkept
  | removeMany ks =>
    have hmem : x ∈ ks.map c.redisKey := mem_map_of_mem hk
    rw [hset] at hkept
    simp only [exec, Redis.entry_delete, if_pos hmem] at hkept
    cases hkept

/-- Two clients keep apart, and an operation leaves the statistics alone. -/
theorem isolated_iff (hc : c.Created) (hc' : c'.Created) (hne : c ≠ c') (op : EntityOp) :
    ((∀ k k', c.redisKey k ≠ c'.redisKey k') ∧ c.LeavesAlone op c.statsKey ∧
        ∀ r : Redis, (∀ k, (c.flush r).entry (c.redisKey k) = none) ∧
          ∀ k, (c.flush r).entry (c'.redisKey k) = r.entry (c'.redisKey k)) ↔
      (¬ Nested c c' ∧ ¬ Nested c' c) ∧ statsUserKey ∉ op.userKeys := by
  have hkeys : (∀ k k', c.redisKey k ≠ c'.redisKey k') ↔ ¬ Nested c c' ∧ ¬ Nested c' c := by
    rw [redisKey_ne_iff, keyPrefix_prefix_iff hc hc' hne, keyPrefix_prefix_iff hc' hc hne.symm]
  have hown : ∀ (r : Redis) k, (c.flush r).entry (c.redisKey k) = none := by
    intro r k
    rw [entry_flush hc, if_pos (c.keyPrefix_prefix_redisKey k)]
  rw [statsKey, leavesAlone_iff, ← hkeys]
  constructor
  · rintro ⟨h, hop, -⟩
    exact ⟨h, hop⟩
  · rintro ⟨h, hop⟩
    exact ⟨h, hop, fun r => ⟨hown r, (entry_flush_other_iff hc).2 h r⟩⟩

theorem visit_order_isolated :
    let c := ofShared .visit
    let c' := ofSite 1 .order
    (∀ k k', c.redisKey k ≠ c'.redisKey k') ∧ c.LeavesAlone (.get "5".toList) c.statsKey ∧
      ∀ r : Redis, (∀ k, (c.flush r).entry (c.redisKey k) = none) ∧
        ∀ k, (c.flush r).entry (c'.redisKey k) = r.entry (c'.redisKey k) := by
  refine (isolated_iff (.shared .visit) (.site 1 .order) (by decide) (.get "5".toList)).2
    ⟨⟨?_, ?_⟩, by decide⟩
  · rintro ⟨n, r, h, -⟩
    exact siteText_ne_shared n .visit (congrArg cacheRegion h).symm
  · rintro ⟨n, r, -, h⟩
    have hregion := congrArg cacheRegion h
    have hcolon : ':' ∈ (ofShared .visit).cacheRegion := by
      rw [hregion]
      simp [ofSite]
    exact colon_notMem_shared .visit hcolon

theorem created_listed (n : UInt8) : (listed n).Created := by
  have hkey : glob statsPattern ((ofSite n .order).redisKey statsUserKey) = true := by
    rw [statsPattern, glob_star_append (by decide), redisKey_eq]
    exact ⟨acix ++ ':' :: (siteText n ++ ':' :: SiteRegion.order.text), by simp [ofSite]⟩
  have h := Created.allStats (.site n .order) hkey
  rwa [ofKey_ofSite] at h

/-- A report type named `Stats` takes the place of the statistics, and what `AllStats` makes of the
keys of a site has keys of its orders. -/
theorem stats_overwritten_and_key_shared :
    (let c := ofSite 1 .reportType
     let r := Redis.empty.set c.statsKey (.hash [(StatKey.writes.text, "3".toList)])
     c.Created ∧ ¬ c.LeavesAlone (.put "Stats".toList "\"\"".toList) c.statsKey ∧
       (c.exec r (.put "Stats".toList "\"\"".toList)).1.entry c.statsKey =
         some (.string "\"\"".toList)) ∧
      ((listed 1).Created ∧ (ofSite 1 .order).Created ∧ listed 1 ≠ ofSite 1 .order ∧
        (listed 1).redisKey "Order:5".toList = (ofSite 1 .order).redisKey "5".toList) := by
  refine ⟨⟨.site 1 .reportType, ?_, ?_⟩, created_listed 1, .site 1 .order, by decide, by decide⟩
  · exact fun h => leavesAlone_iff.1 h (by decide)
  · exact (congrFun (Redis.entry_set _ _) _).trans (Function.update_self _ _ _)

end Statistics

end CacheClient

end AciX
