import AciX.Cache.Client

/-!
# The listing of the statistics

`AllStats` makes a client of the first two parts of each key that ends in `:Stats`. That is the
client of the statistics if its region has no colon (`ofKey_statsKey`). So the listing names every
cache exactly if no region of a site has published statistics, and no other key ends like theirs
(`allStats_perm_iff`).
-/

namespace AciX

open List

structure CacheStats where
  cacheName : Text
  cacheRegion : Text
  field : StatKey → Option Text

namespace CacheClient

def hashField (r : Redis) (k field : Text) : Option Text :=
  match r.entry k with
  | some (.hash fields) => (fields.find? (·.1 = field)).map (·.2)
  | _ => none

def stats (c : CacheClient) (r : Redis) : CacheStats :=
  ⟨c.cacheName, c.cacheRegion, fun key => hashField r c.statsKey key.text⟩

def addStats (r : Redis) (dict : List (Text × CacheStats)) (key : Text) :
    List (Text × CacheStats) :=
  if dict.any (·.1 = key) then dict else dict ++ [(key, (ofKey key).stats r)]

def allStats (servers : List Redis) : List CacheStats :=
  (servers.foldl (fun dict r => (r.scan statsPattern).foldl (addStats r) dict) []).map (·.2)

def Published (c : CacheClient) (r : Redis) : Prop := ∃ fields,
    r.entry c.statsKey = some (.hash fields)

variable {r : Redis} {c : CacheClient}

theorem foldl_addStats : ∀ {keys : List Text} {dict : List (Text × CacheStats)}, keys.Nodup →
    (∀ key ∈ keys, ∀ e ∈ dict, e.1 ≠ key) →
    keys.foldl (addStats r) dict = dict ++ keys.map fun key => (key, (ofKey key).stats r)
  | [], dict, _, _ => by simp
  | key :: keys, dict, hn, h => by
    obtain ⟨hkey, hn⟩ := nodup_cons.1 hn
    have hadd : addStats r dict key = dict ++ [(key, (ofKey key).stats r)] := by
      rw [addStats, if_neg]
      rw [any_eq_true]
      rintro ⟨e, he, heq⟩
      exact h key (by simp) e he (of_decide_eq_true heq)
    rw [foldl_cons, hadd, foldl_addStats hn]
    · simp
    · intro key' hkey' e he
      rcases mem_append.1 he with he | he
      · exact h key' (mem_cons_of_mem _ hkey') e he
      · rw [mem_singleton.1 he]
        rintro rfl
        exact hkey hkey'

theorem allStats_eq (r : Redis) :
    allStats [r] = (r.scan statsPattern).map fun key => (ofKey key).stats r := by
  have hn : (r.scan statsPattern).Nodup := r.nodup.filter _
  rw [allStats, foldl_cons, foldl_nil, foldl_addStats hn (by simp)]
  simp [Function.comp_def]

theorem notMem_of_mem_splitOn : ∀ {t s : Text}, s ∈ t.splitOn ':' → ':' ∉ s
  | [], s, h => by
    rw [splitOn_nil, mem_singleton] at h
    simp [h]
  | c :: t, s, h => by
    rw [splitOn_cons_eq_if_modifyHead] at h
    split_ifs at h with hc
    · rcases mem_cons.1 h with rfl | h
      · simp
      · exact notMem_of_mem_splitOn h
    · obtain ⟨a, as, ht⟩ := exists_cons_of_ne_nil (splitOn_ne_nil ':' t)
      have hparts : ∀ s ∈ a :: as, ':' ∉ s := fun s hs => notMem_of_mem_splitOn (ht ▸ hs)
      rw [ht, modifyHead_cons, mem_cons] at h
      rcases h with rfl | h
      · intro hmem
        rcases mem_cons.1 hmem with heq | hmem
        · exact hc (beq_iff_eq.2 heq.symm)
        · exact hparts a (by simp) hmem
      · exact hparts s (mem_cons_of_mem a h)

theorem colon_notMem_ofKey (key : Text) : ':' ∉ (ofKey key).cacheRegion := by
  simp only [ofKey, getD_eq_getElem?_getD]
  rcases h : (key.splitOn ':')[1]? with _ | s
  · simp
  · exact notMem_of_mem_splitOn (mem_of_getElem? h)

theorem Created.cacheName {c : CacheClient} (h : c.Created) : c.cacheName = acix := by
  rcases h.cases with ⟨r, rfl⟩ | ⟨n, r, rfl⟩ | ⟨n, rfl⟩ <;> rfl

theorem ofKey_statsKey (h : c.Created) (hcolon : ':' ∉ c.cacheRegion) : ofKey c.statsKey = c := by
  have hname : ':' ∉ c.cacheName := h.cacheName ▸ colon_notMem_acix
  rw [statsKey, redisKey_eq]
  exact ofKey_append hname hcolon statsUserKey

theorem mem_scan_stats {key : Text} :
    key ∈ r.scan statsPattern ↔ r.entry key ≠ none ∧ ':' :: statsUserKey <:+ key := by
  rw [Redis.mem_scan, statsPattern, glob_star_append (by decide)]

theorem suffix_statsKey (c : CacheClient) : ':' :: statsUserKey <:+ c.statsKey :=
  ⟨c.cacheName ++ ':' :: c.cacheRegion, by simp [statsKey, redisKey_eq]⟩

theorem Published.mem_scan (h : c.Published r) : c.statsKey ∈ r.scan statsPattern := by
  obtain ⟨fields, h⟩ := h
  exact mem_scan_stats.2 ⟨by simp [h], suffix_statsKey c⟩

section Listing

variable {cs : List CacheClient}

/-- The listing has one entry for each client of which there are statistics, and that is its own,
exactly if none of their regions has a colon and all keys that end so are theirs. -/
theorem allStats_perm_iff (hcs : cs.Nodup) (hmem : ∀ c, c ∈ cs ↔ c.Created ∧ c.Published r) :
    (allStats [r]).Perm (cs.map (·.stats r)) ↔
      (∀ c ∈ cs, ':' ∉ c.cacheRegion) ∧
        ∀ key, r.entry key ≠ none → ':' :: statsUserKey <:+ key → ∃ c ∈ cs, c.statsKey = key := by
  have hkeys : (∀ c ∈ cs, ':' ∉ c.cacheRegion) → (cs.map statsKey).Nodup := by
    intro hcolon
    refine List.Nodup.map_on (fun c hc c' hc' heq => ?_) hcs
    rw [← ofKey_statsKey ((hmem c).1 hc).1 (hcolon c hc),
      ← ofKey_statsKey ((hmem c').1 hc').1 (hcolon c' hc'), heq]
  have hsub : cs.map statsKey ⊆ r.scan statsPattern := by
    intro key hkey
    obtain ⟨c, hc, rfl⟩ := mem_map.1 hkey
    exact ((hmem c).1 hc).2.mem_scan
  rw [allStats_eq]
  constructor
  · intro hperm
    have hcolon : ∀ c ∈ cs, ':' ∉ c.cacheRegion := by
      intro c hc
      have hlisted := hperm.mem_iff.2 (mem_map_of_mem hc)
      obtain ⟨key, -, heq⟩ := mem_map.1 hlisted
      have hregion : (ofKey key).cacheRegion = c.cacheRegion := congrArg CacheStats.cacheRegion heq
      exact hregion ▸ colon_notMem_ofKey key
    refine ⟨hcolon, fun key hkey hsuffix => ?_⟩
    have hlen : (r.scan statsPattern).length ≤ (cs.map statsKey).length := by
      have := hperm.length_eq
      rw [length_map, length_map] at this
      rw [length_map]
      exact this.le
    have hall := ((hkeys hcolon).subperm hsub).perm_of_length_le hlen
    exact mem_map.1 (hall.mem_iff.2 (mem_scan_stats.2 ⟨hkey, hsuffix⟩))
  · rintro ⟨hcolon, hall⟩
    have hscan : (r.scan statsPattern).Perm (cs.map statsKey) := by
      refine (perm_ext_iff_of_nodup (r.nodup.filter _) (hkeys hcolon)).2 fun key => ?_
      refine ⟨fun hkey => ?_, fun hkey => hsub hkey⟩
      obtain ⟨hkey, hsuffix⟩ := mem_scan_stats.1 hkey
      exact mem_map.2 (hall key hkey hsuffix)
    have hown : (cs.map statsKey).map (fun key => (ofKey key).stats r) = cs.map (·.stats r) := by
      rw [map_map]
      refine map_congr_left fun c hc => ?_
      rw [Function.comp_apply, ofKey_statsKey ((hmem c).1 hc).1 (hcolon c hc)]
    rw [← hown]
    exact hscan.map _

theorem statsKey_eq_ofShared {s : SharedRegion} (hc : c.Created)
    (h : c.statsKey = (ofShared s).statsKey) : c = ofShared s := by
  have hkey : ofKey c.statsKey = ofShared s := by
    rw [h]
    exact ofKey_ofShared s statsUserKey
  rcases hc.cases with ⟨s', rfl⟩ | ⟨n, s', rfl⟩ | ⟨n, rfl⟩
  · rwa [statsKey, ofKey_ofShared] at hkey
  · rw [statsKey, ofKey_ofSite] at hkey
    exact absurd (congrArg cacheRegion hkey) (siteText_ne_shared n s)
  · rwa [statsKey, ofKey_listed] at hkey

def publishedBy (c : CacheClient) : Redis :=
  Redis.empty.set c.statsKey (.hash [(StatKey.writes.text, "3".toList)])

theorem entry_publishedBy {key : Text} (h : (publishedBy c).entry key ≠ none) :
    c.statsKey = key := by
  by_contra hne
  exact h (Function.update_of_ne (Ne.symm hne) _ _)

theorem published_publishedBy (c : CacheClient) : c.Published (publishedBy c) :=
  ⟨[(StatKey.writes.text, "3".toList)], by simp [publishedBy]⟩

theorem scan_publishedBy (c : CacheClient) : (publishedBy c).scan statsPattern = [c.statsKey] := by
  have hkeys : (publishedBy c).keys = [c.statsKey] := by simp [publishedBy, Redis.set, Redis.empty]
  have hglob : glob statsPattern c.statsKey = true :=
    (glob_star_append (by decide) _).2 (suffix_statsKey c)
  rw [Redis.scan, hkeys]
  simp [hglob]

theorem default_listed :
    (allStats [publishedBy (ofShared .default)]).Perm
      [(ofShared .default).stats (publishedBy (ofShared .default))] := by
  have hmem : ∀ c, c ∈ [ofShared .default] ↔
      c.Created ∧ c.Published (publishedBy (ofShared .default)) := by
    intro c
    rw [mem_singleton]
    constructor
    · rintro rfl
      exact ⟨.shared .default, published_publishedBy _⟩
    · rintro ⟨hc, fields, hfields⟩
      have hsome : (publishedBy (ofShared .default)).entry c.statsKey ≠ none := by simp [hfields]
      exact statsKey_eq_ofShared hc (entry_publishedBy hsome).symm
  refine (allStats_perm_iff (nodup_singleton _) hmem).2 ⟨?_, ?_⟩
  · intro c hc
    rw [mem_singleton.1 hc]
    exact colon_notMem_shared .default
  · exact fun key hkey _ => ⟨_, mem_singleton_self _, entry_publishedBy hkey⟩

/-- The orders of site 1 are listed under another region, and without their count. -/
theorem orders_listed_wrong :
    (ofSite 1 .order).Created ∧ (ofSite 1 .order).Published (publishedBy (ofSite 1 .order)) ∧
      allStats [publishedBy (ofSite 1 .order)] =
        [(listed 1).stats (publishedBy (ofSite 1 .order))] ∧
      (listed 1).cacheRegion ≠ (ofSite 1 .order).cacheRegion ∧
      ¬ (allStats [publishedBy (ofSite 1 .order)]).Perm
        [(ofSite 1 .order).stats (publishedBy (ofSite 1 .order))] := by
  have hall : allStats [publishedBy (ofSite 1 .order)] =
      [(listed 1).stats (publishedBy (ofSite 1 .order))] := by
    rw [allStats_eq, scan_publishedBy, map_singleton, statsKey, ofKey_ofSite]
  refine ⟨.site 1 .order, published_publishedBy _, hall, by decide, fun hperm => ?_⟩
  rw [hall, perm_singleton, List.cons.injEq] at hperm
  exact absurd (congrArg CacheStats.cacheRegion hperm.1) (by decide)

end Listing

end CacheClient

end AciX
