import AciX.Sql.Case
import AciX.Sql.Update

/-!
# Refreshing the catalog

`spProductRefresh` brings the skus and products of a site up to date with what a supplier offers. An
entry of the type `AlaCart` is one product; one of the type `AlaCartWithSubscription` is two. All
statements are restricted to the site but the last, which copies the prices of products to skus. So
other sites are left alone only if their skus have the prices of their products
(`refresh_stays_iff`).
-/

namespace AciX.Catalog

open Sql

structure Item where
  productExternalID : ℤ
  price : ℤ
  subscriptionProductName : Text
  discountAmount : ℤ
  subscriptionProductExternalID : ℤ
  subscriptionRecurringPrice : ℤ
  productType : Text
  productToken : Text
  title : Text
  deriving DecidableEq

structure CategoryRow where
  siteID : ℕ
  id : ℤ
  externalID : ℤ
  categoryName : Text
  isActive : Bool
  deriving DecidableEq

structure SkuKey where
  siteID : ℕ
  id : ℤ
  categoryID : Option ℤ
  productExternalID : Option ℤ
  productType : Option Text
  deriving DecidableEq

structure SkuRow extends SkuKey where
  isActive : Bool
  price : Option ℤ := none
  recurringPrice : Option ℤ := none
  deriving DecidableEq

structure ProductRow where
  siteID : ℕ
  id : ℤ
  skuID : ℤ
  productExternalID : ℤ
  price : ℤ
  discountAmount : Option ℤ
  recurringPrice : Option ℤ
  productName : Option Text
  requireQueryID : Bool := false
  requireState : Bool := false
  requireProfileID : Bool := false
  reportTypeCode : Option Text := some ['P', 'L']
  productToken : Option Text := none
  isPublic : Bool := true
  deriving DecidableEq

structure CatalogDb where
  categories : List CategoryRow := []
  skus : List SkuRow := []
  products : List ProductRow := []
  reportTypes : List (ℕ × Text) := []

def alaCart : Text := "AlaCart".toList

def alaCartWithSubscription : Text := "AlaCartWithSubscription".toList

section Model

variable (site : ℕ) (items : List Item)

def itemCategories (categories : List CategoryRow) : List (Item × CategoryRow) :=
  join (fun t c => c.siteID = site && c.externalID = t.productExternalID) items categories

def ofCategory (c : CategoryRow) (k : SkuKey) : Bool :=
  k.siteID = site && eqNull k.categoryID (some c.id)

def ofType (t : Item) (k : SkuKey) : Bool :=
  eqNull (k.productType.map collate) (some (collate t.productType))

def newSkus (categories : List CategoryRow) (skus : List SkuRow) : List (Item × CategoryRow) :=
  distinctOn (fun x => (x.2.id, collate x.1.productType, x.1.productExternalID, x.2.isActive))
    ((itemCategories site items categories).filter fun x =>
      !skus.any fun k => ofCategory site x.2 k.toSkuKey && ofType x.1 k.toSkuKey)

def newSku (x : Item × CategoryRow) (id : ℤ) : SkuRow where
  siteID := site
  id := id
  categoryID := some x.2.id
  productExternalID := some x.1.productExternalID
  productType := some (varchar 50 x.1.productType)
  isActive := x.2.isActive

def insertSkus (categories : List CategoryRow) (skus : List SkuRow) : List SkuRow :=
  let new := newSkus site items categories skus
  if new.all fun x => (rtrim x.1.productType).length ≤ 50 then
    skus ++ identity (newSku site) (1 + maxFrom 0 (skus.map (·.id))) new
  else skus

def activateSkus (pick : ℕ → ℕ) (categories : List CategoryRow) (skus : List SkuRow) :
    List SkuRow :=
  updateFrom pick (fun k c => ofCategory site c k.toSkuKey && c.siteID = site)
    (fun k c => { k with isActive := c.isActive }) categories skus

abbrev Source := (Item × CategoryRow) × SkuKey

def typedSources (type : Text) (categories : List CategoryRow) (keys : List SkuKey) : List Source :=
  join (fun x k => ofCategory site x.2 k && ofType x.1 k)
    ((itemCategories site items categories).filter fun x => textEq x.1.productType type) keys

def categorySources (type : Text) (categories : List CategoryRow) (keys : List SkuKey) :
    List Source :=
  join (fun x k => ofCategory site x.2 k)
    ((itemCategories site items categories).filter fun x => textEq x.1.productType type) keys

def ofSku (p : ProductRow) (x : Source) : Bool := p.siteID = site && p.skuID = x.2.id

def ofMainProduct (p : ProductRow) (x : Source) : Bool :=
  ofSku site p x && p.productExternalID = x.1.1.productExternalID

def ofSubscriptionProduct (p : ProductRow) (x : Source) : Bool :=
  ofSku site p x && p.productExternalID = x.1.1.subscriptionProductExternalID

def setAlaCart (p : ProductRow) (x : Source) : ProductRow :=
  { p with
    price := x.1.1.price
    discountAmount := some x.1.1.discountAmount
    productToken := some x.1.1.productToken }

def setMain (p : ProductRow) (x : Source) : ProductRow :=
  { p with
    price := x.1.1.price
    discountAmount := some x.1.1.discountAmount
    recurringPrice := some 0
    productToken := some x.1.1.productToken }

def setSubscription (p : ProductRow) (x : Source) : ProductRow :=
  { p with
    price := 0
    discountAmount := some 0
    recurringPrice := some x.1.1.subscriptionRecurringPrice
    productToken := some x.1.1.productToken }

structure NewProduct where
  skuID : ℤ
  productExternalID : ℤ
  productToken : Option Text
  price : ℤ
  discountAmount : ℤ
  recurringPrice : ℤ
  productName : Text

namespace NewProduct

def ofAlaCart (x : Source) : NewProduct where
  skuID := x.2.id
  productExternalID := x.1.1.productExternalID
  productToken := none
  price := x.1.1.price
  discountAmount := x.1.1.discountAmount
  recurringPrice := 0
  productName := x.1.1.title

def ofMain (x : Source) : NewProduct where
  skuID := x.2.id
  productExternalID := x.1.1.productExternalID
  productToken := some x.1.1.productToken
  price := x.1.1.price
  discountAmount := x.1.1.discountAmount
  recurringPrice := 0
  productName := x.1.2.categoryName

def ofSubscription (x : Source) : NewProduct where
  skuID := x.2.id
  productExternalID := x.1.1.subscriptionProductExternalID
  productToken := some x.1.1.productToken
  price := 0
  discountAmount := 0
  recurringPrice := x.1.1.subscriptionRecurringPrice
  productName := x.1.1.subscriptionProductName

def distinctKey (n : NewProduct) : (ℤ × ℤ × Option Text) × ℤ × ℤ × ℤ × Text :=
  ((n.skuID, n.productExternalID, n.productToken.map collate), n.price, n.discountAmount,
    n.recurringPrice, collate n.productName)

def row (site : ℕ) (n : NewProduct) (id : ℤ) : ProductRow where
  siteID := site
  id := id
  skuID := n.skuID
  productExternalID := n.productExternalID
  price := n.price
  discountAmount := some n.discountAmount
  recurringPrice := some n.recurringPrice
  productName := some (varchar 50 n.productName)
  productToken := n.productToken

end NewProduct

def NewProduct.sold (products : List ProductRow) (n : NewProduct) : Bool :=
  products.any fun p =>
    p.siteID = site && p.skuID = n.skuID && p.productExternalID = n.productExternalID

def unsold (new : List NewProduct) (products : List ProductRow) : List NewProduct :=
  new.filter fun n => !n.sold site products

def missing (new : List NewProduct) (products : List ProductRow) : List NewProduct :=
  distinctOn NewProduct.distinctKey (unsold site new products)

/-- The names fit their column, and the site has the report type that is the default. -/
def insertable (reportTypes : List (ℕ × Text)) (new : List NewProduct) : Bool :=
  (new.all fun n => (rtrim n.productName).length ≤ 50) &&
    reportTypes.any fun r => r.1 = site && textEq r.2 ['P', 'L']

def insertProducts (reportTypes : List (ℕ × Text)) (new : List NewProduct)
    (products : List ProductRow) : List ProductRow :=
  if insertable site reportTypes (missing site new products) then
    products ++ identity (NewProduct.row site) (1 + maxFrom 0 (products.map (·.id)))
      (missing site new products)
  else products

def sells (k : SkuRow) (p : ProductRow) : Bool :=
  p.siteID = k.siteID && eqNull k.productExternalID (some p.productExternalID)

def setPrice (k : SkuRow) (p : ProductRow) : SkuRow :=
  { k with price := some p.price, recurringPrice := p.recurringPrice }

def priceSkus (pick : ℕ → ℕ) (products : List ProductRow) (skus : List SkuRow) : List SkuRow :=
  updateFrom pick sells setPrice products skus

/-- What the statements do to `Product`, from the skus of the entries: those of `AlaCart`, those of
`AlaCartWithSubscription` and those of any type in the categories of these. -/
def refreshFrom (pick : ℕ → ℕ → ℕ) (single main wide : List Source)
    (reportTypes : List (ℕ × Text)) (products : List ProductRow) : List ProductRow :=
  let products := updateFrom (pick 1) (ofSku site) setAlaCart single products
  let products := insertProducts site reportTypes (single.map .ofAlaCart) products
  let products := updateFrom (pick 2) (ofMainProduct site) setMain main products
  let products := updateFrom (pick 3) (ofSubscriptionProduct site) setSubscription main products
  let products := insertProducts site reportTypes (wide.map .ofMain) products
  insertProducts site reportTypes (main.map .ofSubscription) products

def refreshProducts (pick : ℕ → ℕ → ℕ) (categories : List CategoryRow) (keys : List SkuKey)
    (reportTypes : List (ℕ × Text)) (products : List ProductRow) : List ProductRow :=
  refreshFrom site pick (typedSources site items alaCart categories keys)
    (typedSources site items alaCartWithSubscription categories keys)
    (categorySources site items alaCartWithSubscription categories keys) reportTypes products

/-- `pick` says for each `UPDATE` which of the rows joined the server uses. -/
def spProductRefresh (pick : ℕ → ℕ → ℕ) (db : CatalogDb) : CatalogDb :=
  let skus := activateSkus site (pick 0) db.categories
    (insertSkus site items db.categories db.skus)
  let products := refreshProducts site items pick db.categories (skus.map (·.toSkuKey))
    db.reportTypes db.products
  { db with skus := priceSkus (pick 4) products skus, products := products }

end Model

section Frame

variable {site : ℕ} {items : List Item}

theorem elsewhere_updateFrom {α β : Type} {siteOf : α → ℕ} {pick : ℕ → ℕ} {on : α → β → Bool}
    {set : α → β → α} {src : List β} {rows : List α} (hon : ∀ r s, on r s = true → siteOf r = site)
    (hset : ∀ r s, siteOf (set r s) = siteOf r) :
    (updateFrom pick on set src rows).filter (fun r => siteOf r ≠ site) =
      rows.filter fun r => siteOf r ≠ site := by
  refine filter_updates updates_updateFrom fun r _ s _ hjoin => ?_
  simp [hset, hon r s hjoin]

theorem siteID_of_ofSku {p : ProductRow} {x : Source} (h : ofSku site p x = true) :
    p.siteID = site := by
  simp only [ofSku, Bool.and_eq_true, decide_eq_true_eq] at h
  exact h.1

theorem elsewhere_append {α : Type} {siteOf : α → ℕ} {rows new : List α}
    (h : ∀ r ∈ new, siteOf r = site) :
    (rows ++ new).filter (fun r => siteOf r ≠ site) = rows.filter fun r => siteOf r ≠ site := by
  have hnil : new.filter (fun r => siteOf r ≠ site) = [] :=
    List.filter_eq_nil_iff.2 fun r hr => by simp [h r hr]
  rw [List.filter_append, hnil, List.append_nil]

theorem elsewhere_insertProducts (reportTypes : List (ℕ × Text)) (new : List NewProduct)
    (products : List ProductRow) :
    (insertProducts site reportTypes new products).filter (fun p => p.siteID ≠ site) =
      products.filter fun p => p.siteID ≠ site := by
  unfold insertProducts
  split_ifs
  · refine elsewhere_append fun p hp => ?_
    obtain ⟨n, -, i, -, rfl⟩ := mem_identity hp
    rfl
  · rfl

theorem elsewhere_refreshProducts (site : ℕ) (items : List Item) (pick : ℕ → ℕ → ℕ)
    (categories : List CategoryRow) (keys : List SkuKey) (reportTypes : List (ℕ × Text))
    (products : List ProductRow) :
    (refreshProducts site items pick categories keys reportTypes products).filter
      (fun p => p.siteID ≠ site) = products.filter fun p => p.siteID ≠ site := by
  unfold refreshProducts refreshFrom
  simp only []
  rw [elsewhere_insertProducts, elsewhere_insertProducts, elsewhere_updateFrom,
    elsewhere_updateFrom, elsewhere_insertProducts, elsewhere_updateFrom]
  · exact fun p x => siteID_of_ofSku
  · exact fun _ _ => rfl
  · exact fun p x h => siteID_of_ofSku (Bool.and_eq_true_iff.1 h).1
  · exact fun _ _ => rfl
  · exact fun p x h => siteID_of_ofSku (Bool.and_eq_true_iff.1 h).1
  · exact fun _ _ => rfl

theorem elsewhere_skus (site : ℕ) (items : List Item) (pick : ℕ → ℕ)
    (categories : List CategoryRow) (skus : List SkuRow) :
    (activateSkus site pick categories (insertSkus site items categories skus)).filter
      (fun k => k.siteID ≠ site) = skus.filter fun k => k.siteID ≠ site := by
  unfold activateSkus
  rw [elsewhere_updateFrom]
  · unfold insertSkus
    simp only []
    split_ifs
    · refine elsewhere_append fun k hk => ?_
      obtain ⟨x, -, i, -, rfl⟩ := mem_identity hk
      rfl
    · rfl
  · intro k c h
    simp only [ofCategory, Bool.and_eq_true, decide_eq_true_eq] at h
    exact h.1.1
  · exact fun _ _ => rfl

end Frame

section Sites

variable (site : ℕ) (items : List Item) (db : CatalogDb)

/-- A refresh of the catalog changes nothing of another site. -/
structure Stays (after : CatalogDb) : Prop where
  products : after.products.filter (fun p => p.siteID ≠ site) =
    db.products.filter fun p => p.siteID ≠ site
  skus : after.skus.filter (fun k => k.siteID ≠ site) = db.skus.filter fun k => k.siteID ≠ site
  categories : after.categories = db.categories
  reportTypes : after.reportTypes = db.reportTypes

def SkuRow.HasPrices (products : List ProductRow) (k : SkuRow) : Prop :=
  ∀ p ∈ products, p.siteID = k.siteID → k.productExternalID = some p.productExternalID →
    k.price = some p.price ∧ k.recurringPrice = p.recurringPrice

def Priced : Prop := ∀ k ∈ db.skus, k.siteID ≠ site → k.HasPrices db.products

variable {site items db}

theorem sells_iff {k : SkuRow} {p : ProductRow} : sells k p = true ↔
    p.siteID = k.siteID ∧ k.productExternalID = some p.productExternalID := by
  rw [sells, Bool.and_eq_true, decide_eq_true_eq, eqNull_iff]
  simp

theorem setPrice_eq_iff {k : SkuRow} {p : ProductRow} :
    setPrice k p = k ↔ k.price = some p.price ∧ k.recurringPrice = p.recurringPrice := by
  refine ⟨fun h => ⟨(congrArg SkuRow.price h).symm, (congrArg SkuRow.recurringPrice h).symm⟩, ?_⟩
  rintro ⟨hprice, hrecurring⟩
  rw [setPrice, ← hprice, ← hrecurring]

/-- The last update leaves the skus of other sites alone, whatever the server chooses, iff these
have the prices of their products. -/
theorem priceSkus_elsewhere_iff {products : List ProductRow} {skus : List SkuRow} :
    (∀ pick, (priceSkus pick products skus).filter (fun k => k.siteID ≠ site) =
      skus.filter fun k => k.siteID ≠ site) ↔
      ∀ k ∈ skus, k.siteID ≠ site → k.HasPrices products := by
  unfold priceSkus
  refine ⟨fun h k hk hsite p hp hpk hext => ?_, fun h pick => ?_⟩
  · obtain ⟨pick, f, hmap, hf⟩ := exists_pick_row sells setPrice skus hp
    have hsiteID : ∀ r, (f r).siteID = r.siteID := by
      intro r
      rcases (hf r).2 with ⟨p', -, -, hr⟩ | ⟨-, hr⟩ <;> rw [hr]
      rfl
    have hcomp : ((fun k : SkuRow => decide (k.siteID ≠ site)) ∘ f) =
        fun k : SkuRow => decide (k.siteID ≠ site) := by
      funext r
      simp only [Function.comp_apply, hsiteID]
    have hsame := h pick
    rw [hmap, List.filter_map, hcomp] at hsame
    have hid : ∀ r ∈ skus.filter (fun k => k.siteID ≠ site), f r = id r :=
      List.map_inj_left.1 (hsame.trans (List.map_id _).symm)
    have hfk := hid k (List.mem_filter.2 ⟨hk, decide_eq_true hsite⟩)
    rw [(hf k).1 (sells_iff.2 ⟨hpk, hext⟩)] at hfk
    exact setPrice_eq_iff.1 hfk
  · have hupdates : List.Forall₂ (Updates sells setPrice products) skus
        (updateFrom pick sells setPrice products skus) := updates_updateFrom
    have hmem := (List.forall₂_and_left skus _).2 ⟨fun k hk => hk, hupdates⟩
    refine filter_eq_of_forall₂ (hmem.imp fun k k' hk => ?_)
    rcases hk.2 with ⟨p, hp, hon, rfl⟩ | ⟨-, rfl⟩
    · obtain ⟨hpk, hext⟩ := sells_iff.1 hon
      exact ⟨rfl, fun hsite => setPrice_eq_iff.2 (h k hk.1 (of_decide_eq_true hsite) p hp hpk hext)⟩
    · exact ⟨rfl, fun _ => rfl⟩

theorem mem_iff_of_elsewhere {α : Type} {siteOf : α → ℕ} {rows rows' : List α}
    (h : rows'.filter (fun r => siteOf r ≠ site) = rows.filter fun r => siteOf r ≠ site) {r : α}
    (hr : siteOf r ≠ site) : r ∈ rows' ↔ r ∈ rows := by
  have hmem : r ∈ rows'.filter (fun r => siteOf r ≠ site) ↔
      r ∈ rows.filter fun r => siteOf r ≠ site := by rw [h]
  simpa [hr] using hmem

theorem hasPrices_congr {products products' : List ProductRow} {k : SkuRow} (hk : k.siteID ≠ site)
    (h : products'.filter (fun p => p.siteID ≠ site) = products.filter fun p => p.siteID ≠ site) :
    k.HasPrices products' ↔ k.HasPrices products := by
  refine forall_congr' fun p => ⟨fun hp hmem hpk => ?_, fun hp hmem hpk => ?_⟩
  · exact hp ((mem_iff_of_elsewhere h (hpk ▸ hk)).2 hmem) hpk
  · exact hp ((mem_iff_of_elsewhere h (hpk ▸ hk)).1 hmem) hpk

theorem forall_hasPrices_iff {products : List ProductRow} {skus : List SkuRow}
    (hproducts : products.filter (fun p => p.siteID ≠ site) =
      db.products.filter fun p => p.siteID ≠ site)
    (hskus : skus.filter (fun k => k.siteID ≠ site) = db.skus.filter fun k => k.siteID ≠ site) :
    (∀ k ∈ skus, k.siteID ≠ site → k.HasPrices products) ↔ Priced site db := by
  refine forall_congr' fun k => ⟨fun h hk hsite => ?_, fun h hk hsite => ?_⟩
  · exact (hasPrices_congr hsite hproducts).1 (h ((mem_iff_of_elsewhere hskus hsite).2 hk) hsite)
  · exact (hasPrices_congr hsite hproducts).2 (h ((mem_iff_of_elsewhere hskus hsite).1 hk) hsite)

/-- A refresh leaves the other sites alone, whichever joined rows the server uses, exactly if their
skus have the prices of their products already. -/
theorem refresh_stays_iff :
    (∀ pick, Stays site db (spProductRefresh site items pick db)) ↔ Priced site db := by
  refine ⟨fun h => ?_, fun h pick => ⟨elsewhere_refreshProducts _ _ _ _ _ _ _, ?_, rfl, rfl⟩⟩
  · have hskus := elsewhere_skus site items (fun _ => 0) db.categories db.skus
    have hproducts := elsewhere_refreshProducts site items (fun _ _ => 0)
      db.categories ((activateSkus site (fun _ => 0) db.categories
        (insertSkus site items db.categories db.skus)).map (·.toSkuKey)) db.reportTypes db.products
    refine (forall_hasPrices_iff hproducts hskus).1 (priceSkus_elsewhere_iff.1 fun last => ?_)
    rw [hskus]
    exact (h fun i => match i with
      | 4 => last
      | _ => fun _ => 0).skus
  · have hskus := elsewhere_skus site items (pick 0) db.categories db.skus
    rw [← hskus]
    refine priceSkus_elsewhere_iff.2 ?_ (pick 4)
    exact (forall_hasPrices_iff (elsewhere_refreshProducts _ _ _ _ _ _ _) hskus).2 h

end Sites

def unpriced : CatalogDb where
  skus := [{ siteID := 2, id := 1, categoryID := some 1, productExternalID := some 7,
             productType := some alaCart, isActive := true }]
  products := [{ siteID := 2, id := 1, skuID := 1, productExternalID := 7, price := 10000,
                 discountAmount := none, recurringPrice := some 0, productName := none }]

theorem unpriced_not_stays :
    ¬ Stays 1 unpriced (spProductRefresh 1 [] (fun _ _ => 0) unpriced) := by
  intro h
  have hskus := h.skus
  revert hskus
  decide

end AciX.Catalog
