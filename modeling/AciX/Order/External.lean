import AciX.Cache.Bulk
import AciX.Order.Access

/-!
# Orders by their external id

`SiteOrderCacheByExternalID` looks up the ids of the orders that have the external ids it is asked
for, and then the orders. External ids are unique on a site.
-/

namespace AciX.Db

open List

variable (db : Db)

/-- `GetFromDB` is never called without a key. -/
def siteOrderCacheByExternalID (siteID : ℕ) : EntityCache ℤ DBOrder where
  getFromDB
    | [] => []
    | keys => db.spOrderGet siteID (db.spOrderSearch siteID 0 {} keys)
  getKey := DBOrder.orderExternalID

def orderOfExternalID (siteID : ℕ) (externalID : ℤ) : Option DBOrder :=
  (db.orders.find? fun o => o.siteID = siteID && o.externalID = some externalID).bind fun o =>
    db.orderOf siteID o.id

variable {db} {siteID : ℕ} {f : OrderFilters} {keys : List ℤ}

theorem spOrderSearch_externalIDs {userID : ℤ}
    (h : keys ≠ []) : db.spOrderSearch siteID userID f keys =
      (db.orders.filter (·.siteID = siteID)).flatMap fun o =>
        (keys.filter fun k => Sql.eqNull (some k) o.externalID).map fun _ => o.id := by
  simp only [spOrderSearch, ne_eq, h, not_false_eq_true, if_true, Sql.join, map_flatMap, map_map]
  rfl

theorem mem_spOrderSearch_externalIDs {userID x : ℤ} (h : keys ≠ []) :
    x ∈ db.spOrderSearch siteID userID f keys ↔
      ∃ o ∈ db.orders, o.siteID = siteID ∧ o.id = x ∧ ∃ k ∈ keys, o.externalID = some k := by
  rw [spOrderSearch_externalIDs h]
  simp only [mem_flatMap, mem_filter, mem_map, decide_eq_true_eq, Sql.eqNull_iff, Option.some.injEq]
  constructor
  · rintro ⟨o, ⟨ho, hs⟩, k, ⟨hk, k', rfl, hx⟩, rfl⟩
    exact ⟨o, ho, hs, rfl, k, hk, hx⟩
  · rintro ⟨o, ho, hs, rfl, k, hk, hx⟩
    exact ⟨o, ⟨ho, hs⟩, k, ⟨hk, k, rfl, hx⟩, rfl⟩

theorem nodup_spOrderSearch (hk : db.OrderKeys) {userID : ℤ} (h : keys ≠ []) (hn : keys.Nodup) :
    (db.spOrderSearch siteID userID f keys).Nodup := by
  rw [spOrderSearch_externalIDs h, nodup_flatMap]
  constructor
  · refine fun o _ => List.Nodup.map_on (fun a ha b hb _ => ?_) (hn.filter _)
    simp only [mem_filter, Sql.eqNull_iff, Option.some.injEq] at ha hb
    obtain ⟨-, x, rfl, hx⟩ := ha
    obtain ⟨-, y, rfl, hy⟩ := hb
    exact Option.some.inj (hx.symm.trans hy)
  · have hids : (db.orders.filter (·.siteID = siteID)).Pairwise
        fun o o' => (o.siteID, o.id) ≠ (o'.siteID, o'.id) :=
      (pairwise_map.1 hk.orders).sublist filter_sublist
    refine hids.imp_of_mem fun {o o'} ho ho' hne x hx hx' => ?_
    simp only [mem_filter, decide_eq_true_eq, mem_map] at ho ho' hx hx'
    obtain ⟨-, -, rfl⟩ := hx
    obtain ⟨-, -, hid⟩ := hx'
    exact hne (by rw [ho.2, ho'.2, hid])

theorem orderOfExternalID_some {k : ℤ} {e : DBOrder}
    (h : db.orderOfExternalID siteID k = some e) : ∃ o ∈ db.orders, o.siteID = siteID ∧
      o.externalID = some k ∧ db.orderOf siteID o.id = some e := by
  unfold orderOfExternalID at h
  obtain ⟨o, ho, he⟩ := Option.bind_eq_some_iff.1 h
  have hp := find?_some ho
  simp only [Bool.and_eq_true, decide_eq_true_eq] at hp
  exact ⟨o, mem_of_find?_eq_some ho, hp.1, hp.2, he⟩

theorem orderOfExternalID_eq (hk : db.OrderKeys) {o : OrderRow} (ho : o ∈ db.orders) {k : ℤ}
    (hx : o.externalID = some k) : db.orderOfExternalID o.siteID k = db.orderOf o.siteID o.id := by
  unfold orderOfExternalID
  rw [hk.ordersExternal.find?_eq ho (by simp [hx]) fun b _ hb => by simpa [hx] using hb]
  rfl

theorem siteOrderCacheByExternalID_reads (hk : db.OrderKeys) (siteID : ℕ) :
    (db.siteOrderCacheByExternalID siteID).Reads (db.orderOfExternalID siteID) := by
  constructor
  · intro keys e hn
    rcases keys with _ | ⟨k₀, ks⟩
    · simp [siteOrderCacheByExternalID]
    have hids : (db.spOrderSearch siteID 0 {} (k₀ :: ks)).Nodup :=
      nodup_spOrderSearch hk (cons_ne_nil k₀ ks) hn
    refine ((siteOrderCache_reads hk siteID).mem _ e hids).trans ?_
    simp only [mem_spOrderSearch_externalIDs (cons_ne_nil k₀ ks)]
    constructor
    · rintro ⟨x, ⟨o, ho, rfl, rfl, k, hkey, hx⟩, he⟩
      exact ⟨k, hkey, (orderOfExternalID_eq hk ho hx).trans he⟩
    · rintro ⟨k, hkey, he⟩
      obtain ⟨o, ho, hs, hx, he'⟩ := orderOfExternalID_some he
      exact ⟨o.id, ⟨o, ho, hs, rfl, k, hkey, hx⟩, he'⟩
  · intro k e h
    obtain ⟨o, ho, rfl, hx, he⟩ := orderOfExternalID_some h
    rw [orderOf_eq hk ho, Option.some.injEq] at he
    subst he
    simp [siteOrderCacheByExternalID, readOrder, hx]

end AciX.Db
