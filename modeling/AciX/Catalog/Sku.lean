import AciX.Catalog.Refresh

/-!
# The skus of the entries

Once a refresh has added the skus that were missing, the next one with the same list finds the same
skus (`keys_again`). If there is at most one entry for a reference id and a type, then each sku is
that of one entry of a type at most (`sources`).
-/

namespace AciX.Catalog

open List Sql

structure CatalogDb.Keys (db : CatalogDb) : Prop where
  categories : Sql.Unique (fun c : CategoryRow => (c.siteID, c.id)) db.categories
  skus : Sql.Unique (fun k : SkuRow => (k.siteID, k.id)) db.skus

/-- No two items have the same external id and type. -/
def OneEach (items : List Item) : Prop :=
  Sql.Unique (fun t : Item => (t.productExternalID, collate t.productType)) items

def skuKeys (site : ℕ) (items : List Item) (db : CatalogDb) : List SkuKey :=
  (insertSkus site items db.categories db.skus).map (·.toSkuKey)

section Skus

variable {site : ℕ} {items : List Item} {categories : List CategoryRow} {skus skus' : List SkuRow}
  (pick : ℕ → ℕ)

theorem newSkus_congr (h : skus'.map (·.toSkuKey) = skus.map (·.toSkuKey)) :
    newSkus site items categories skus' = newSkus site items categories skus := by
  have hany : ∀ f : SkuKey → Bool, (skus'.any fun k => f k.toSkuKey) =
      skus.any fun k => f k.toSkuKey := by
    intro f
    have hmap := congrArg (List.any · f) h
    simpa only [any_map, Function.comp_def] using hmap
  unfold newSkus
  refine congrArg (distinctOn _) (filter_congr fun x _ => ?_)
  rw [hany fun k => ofCategory site x.2 k && ofType x.1 k]

def TypesFit (site : ℕ) (items : List Item) (categories : List CategoryRow) (skus : List SkuRow) :
    Prop :=
  ∀ x ∈ newSkus site items categories skus, (rtrim x.1.productType).length ≤ 50

theorem insertSkus_of_fit (h : TypesFit site items categories skus) :
    insertSkus site items categories skus = skus ++ identity (newSku site)
      (1 + maxFrom 0 (skus.map (·.id))) (newSkus site items categories skus) := by
  unfold insertSkus
  exact if_pos (by simpa [TypesFit] using h)

theorem insertSkus_of_not_fit (h : ¬ TypesFit site items categories skus) :
    insertSkus site items categories skus = skus := by
  unfold insertSkus
  exact if_neg (by simpa [TypesFit] using h)

theorem newSkus_insertSkus (h : TypesFit site items categories skus) :
    newSkus site items categories (insertSkus site items categories skus) = [] := by
  refine eq_nil_iff_forall_not_mem.2 fun x hx => ?_
  obtain ⟨hitem, hnone⟩ := mem_filter.1 (mem_of_mem_distinctOn hx)
  rw [insertSkus_of_fit h, any_append, Bool.not_or, Bool.and_eq_true] at hnone
  obtain ⟨y, hy, hkey⟩ : ∃ y ∈ newSkus site items categories skus,
      (y.2.id, collate y.1.productType, y.1.productExternalID, y.2.isActive) =
        (x.2.id, collate x.1.productType, x.1.productExternalID, x.2.isActive) :=
    exists_mem_distinctOn (mem_filter.2 ⟨hitem, hnone.1⟩)
  simp only [Prod.mk.injEq] at hkey
  obtain ⟨i, hi⟩ : ∃ i, newSku site y i ∈ identity (newSku site)
      (1 + maxFrom 0 (skus.map (·.id))) (newSkus site items categories skus) :=
    exists_mem_identity hy
  have hk := hnone.2
  rw [Bool.not_eq_true', any_eq_false] at hk
  refine hk _ hi ?_
  have htype := textEq_iff.1 ((textEq_varchar 50 y.1.productType).2 (h y hy))
  simp [ofCategory, ofType, newSku, hkey.1, htype, hkey.2.1]

theorem keys_insertSkus (h : skus'.map (·.toSkuKey) =
    (insertSkus site items categories skus).map (·.toSkuKey)) :
    (insertSkus site items categories skus').map (·.toSkuKey) = skus'.map (·.toSkuKey) := by
  by_cases hfit : TypesFit site items categories skus
  · have hnew : newSkus site items categories skus' = [] :=
      (newSkus_congr h).trans (newSkus_insertSkus hfit)
    rw [insertSkus_of_fit (by simp [TypesFit, hnew]), hnew, identity, append_nil]
  · rw [insertSkus_of_not_fit hfit] at h
    rw [insertSkus_of_not_fit]
    rwa [TypesFit, newSkus_congr h]

theorem keys_activateSkus :
    (activateSkus site pick categories skus).map (·.toSkuKey) = skus.map (·.toSkuKey) :=
  map_updateFrom fun _ _ => rfl

theorem keys_priceSkus (products : List ProductRow) :
    (priceSkus pick products skus).map (·.toSkuKey) = skus.map (·.toSkuKey) :=
  map_updateFrom fun _ _ => rfl

theorem unique_insertSkus (h : Sql.Unique (fun k : SkuRow => (k.siteID, k.id)) skus) :
    Sql.Unique (fun k : SkuKey => (k.siteID, k.id))
      ((insertSkus site items categories skus).map (·.toSkuKey)) := by
  have hrows : Sql.Unique (fun k : SkuRow => (k.siteID, k.id))
      (insertSkus site items categories skus) := by
    by_cases hfit : TypesFit site items categories skus
    · rw [insertSkus_of_fit hfit]
      have hnew : Sql.Unique (fun k : SkuRow => k.id) (identity (newSku site)
          (1 + maxFrom 0 (skus.map (·.id))) (newSkus site items categories skus)) :=
        unique_identity (fun _ _ => rfl) _ _
      refine h.append (hnew.of_key fun a b hab => (Prod.mk.inj hab).2) fun k hk k' hk' heq => ?_
      obtain ⟨x, -, i, hle, rfl⟩ := mem_identity hk'
      have hmax : k.id ≤ maxFrom 0 (skus.map (·.id)) := le_maxFrom (mem_map_of_mem hk)
      have hid : k.id = i := (Prod.mk.inj heq).2
      omega
    · rwa [insertSkus_of_not_fit hfit]
  unfold Sql.Unique at hrows ⊢
  rwa [map_map]

end Skus

section Twice

variable {site : ℕ} {items : List Item} {db : CatalogDb} (pick : ℕ → ℕ → ℕ)

theorem unique_skuKeys (site : ℕ) (items : List Item) (h : db.Keys) :
    Sql.Unique (fun k : SkuKey => (k.siteID, k.id)) (skuKeys site items db) :=
  unique_insertSkus h.skus

theorem products_spProductRefresh : (spProductRefresh site items pick db).products =
      refreshProducts site items pick db.categories (skuKeys site items db) db.reportTypes
        db.products := by
  simp only [spProductRefresh, keys_activateSkus]
  rfl

theorem keys_again :
    skuKeys site items (spProductRefresh site items pick db) = skuKeys site items db := by
  have hkeys : (spProductRefresh site items pick db).skus.map (·.toSkuKey) =
      skuKeys site items db := by
    simp only [spProductRefresh, keys_priceSkus, keys_activateSkus]
    rfl
  exact (keys_insertSkus hkeys).trans hkeys

theorem products_twice (pick pick' : ℕ → ℕ → ℕ) :
    (spProductRefresh site items pick' (spProductRefresh site items pick db)).products =
      refreshProducts site items pick' db.categories (skuKeys site items db) db.reportTypes
        (refreshProducts site items pick db.categories (skuKeys site items db) db.reportTypes
          db.products) := by
  rw [products_spProductRefresh, keys_again, products_spProductRefresh]
  rfl

end Twice

section Sources

variable {site : ℕ} {items : List Item} {categories : List CategoryRow} {keys : List SkuKey}

theorem mem_categorySources {type : Text} {x : Source} :
    x ∈ categorySources site items type categories keys ↔ x.1.1 ∈ items ∧ x.1.2 ∈ categories ∧
      x.1.2.siteID = site ∧ x.1.2.externalID = x.1.1.productExternalID ∧
      collate x.1.1.productType = collate type ∧ x.2 ∈ keys ∧ x.2.siteID = site ∧
      x.2.categoryID = some x.1.2.id := by
  obtain ⟨⟨t, c⟩, k⟩ := x
  simp only [categorySources, mem_join, mem_filter, itemCategories, ofCategory,
    Bool.and_eq_true, decide_eq_true_eq, textEq_iff, eqNull_iff, Option.some.injEq,
    exists_eq_right', and_assoc]

theorem mem_typedSources {type : Text} {x : Source} :
    x ∈ typedSources site items type categories keys ↔
      x ∈ categorySources site items type categories keys ∧ ofType x.1.1 x.2 = true := by
  obtain ⟨⟨t, c⟩, k⟩ := x
  simp only [typedSources, categorySources, mem_join, Bool.and_eq_true, and_assoc]

theorem ofType_iff {t : Item} {k : SkuKey} :
    ofType t k = true ↔ k.productType.map collate = some (collate t.productType) := by
  rw [ofType, eqNull_iff]
  simp

structure Sources (single main wide : List Source) : Prop where
  single_eq : ∀ x ∈ single, ∀ y ∈ single, x.2.id = y.2.id → x = y
  wide_eq : ∀ x ∈ wide, ∀ y ∈ wide, x.2.id = y.2.id → x = y
  mem_wide : ∀ x ∈ main, x ∈ wide
  apart : ∀ x ∈ single, ∀ y ∈ main, x.2.id ≠ y.2.id
  externalID : ∀ x ∈ single, ∀ y ∈ wide, x.2.id = y.2.id →
    x.1.1.productExternalID = y.1.1.productExternalID

variable (hcategories : Sql.Unique (fun c : CategoryRow => (c.siteID, c.id)) categories)
  (hkeys : Sql.Unique (fun k : SkuKey => (k.siteID, k.id)) keys) {x y : Source} {type type' : Text}

include hkeys in
theorem key_eq (hx : x ∈ categorySources site items type categories keys)
    (hy : y ∈ categorySources site items type' categories keys) (h : x.2.id = y.2.id) :
    x.2 = y.2 := by
  obtain ⟨-, -, -, -, -, hk, hsite, -⟩ := mem_categorySources.1 hx
  obtain ⟨-, -, -, -, -, hk', hsite', -⟩ := mem_categorySources.1 hy
  exact hkeys.eq hk hk' (by rw [hsite, hsite', h])

include hcategories hkeys in
theorem category_eq (hx : x ∈ categorySources site items type categories keys)
    (hy : y ∈ categorySources site items type' categories keys) (h : x.2.id = y.2.id) :
    x.1.2 = y.1.2 := by
  have hkey := key_eq hkeys hx hy h
  obtain ⟨-, hc, hsite, -, -, -, -, hid⟩ := mem_categorySources.1 hx
  obtain ⟨-, hc', hsite', -, -, -, -, hid'⟩ := mem_categorySources.1 hy
  rw [hkey, hid', Option.some.injEq] at hid
  exact hcategories.eq hc hc' (by rw [hsite, hsite', hid])

include hcategories hkeys in
theorem externalID_eq (hx : x ∈ categorySources site items type categories keys)
    (hy : y ∈ categorySources site items type' categories keys) (h : x.2.id = y.2.id) :
    x.1.1.productExternalID = y.1.1.productExternalID := by
  have hcategory := category_eq hcategories hkeys hx hy h
  obtain ⟨-, -, -, hext, -⟩ := mem_categorySources.1 hx
  obtain ⟨-, -, -, hext', -⟩ := mem_categorySources.1 hy
  rw [← hext, ← hext', hcategory]

include hcategories hkeys in
theorem source_eq (hitems : OneEach items) {type : Text}
    (hx : x ∈ categorySources site items type categories keys)
    (hy : y ∈ categorySources site items type categories keys) (h : x.2.id = y.2.id) : x = y := by
  have hext := externalID_eq hcategories hkeys hx hy h
  have hcategory := category_eq hcategories hkeys hx hy h
  have hkey := key_eq hkeys hx hy h
  obtain ⟨ht, -, -, -, htype, -⟩ := mem_categorySources.1 hx
  obtain ⟨ht', -, -, -, htype', -⟩ := mem_categorySources.1 hy
  exact Prod.ext (Prod.ext (hitems.eq ht ht' (by rw [hext, htype, htype'])) hcategory) hkey

include hkeys in
theorem sku_apart (hx : x ∈ typedSources site items alaCart categories keys)
    (hy : y ∈ typedSources site items alaCartWithSubscription categories keys) :
    x.2.id ≠ y.2.id := by
  intro h
  obtain ⟨hx, htype⟩ := mem_typedSources.1 hx
  obtain ⟨hy, htype'⟩ := mem_typedSources.1 hy
  obtain ⟨-, -, -, -, hcart, -⟩ := mem_categorySources.1 hx
  obtain ⟨-, -, -, -, hcart', -⟩ := mem_categorySources.1 hy
  have htypes : collate alaCart = collate alaCartWithSubscription := by
    rw [ofType_iff, hcart, key_eq hkeys hx hy h] at htype
    rw [ofType_iff, hcart', htype] at htype'
    exact Option.some.inj htype'
  exact absurd htypes (by decide)

include hcategories hkeys in
theorem sources (site : ℕ) (hitems : OneEach items) :
    Sources (typedSources site items alaCart categories keys)
      (typedSources site items alaCartWithSubscription categories keys)
      (categorySources site items alaCartWithSubscription categories keys) where
  single_eq _ hx _ hy h := source_eq hcategories hkeys hitems (mem_typedSources.1 hx).1
    (mem_typedSources.1 hy).1 h
  wide_eq _ hx _ hy h := source_eq hcategories hkeys hitems hx hy h
  mem_wide _ hx := (mem_typedSources.1 hx).1
  apart _ hx _ hy := sku_apart hkeys hx hy
  externalID _ hx _ hy h := externalID_eq hcategories hkeys (mem_typedSources.1 hx).1 hy h

end Sources

end AciX.Catalog
