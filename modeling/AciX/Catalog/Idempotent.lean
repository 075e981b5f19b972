import AciX.Catalog.Product

/-!
# Refreshing the catalog again

A product of the type `AlaCart` is inserted without its token, which the next run sets; a main
product whose subscription has the same reference id is inserted with the prices of the one and
updated with those of the other. Otherwise running `spProductRefresh` twice is running it once
(`refresh_twice_iff`).
-/

namespace AciX.Catalog

open List

section Settled

variable (site : ℕ) (single main wide : List Source) (products : List ProductRow)

structure Final (x : Source) : Prop where
  alaCart : ∀ y ∈ single, y.2.id = x.2.id → y.1.1.price = x.1.1.price ∧
    y.1.1.discountAmount = x.1.1.discountAmount ∧ y.1.1.productToken = x.1.1.productToken
  subscription : x ∈ main → x.1.1.productExternalID = x.1.1.subscriptionProductExternalID →
    x.1.1.price = 0 ∧ x.1.1.discountAmount = 0 ∧ x.1.1.subscriptionRecurringPrice = 0

/-- A run inserts no product that the next one changes, and nothing that lets the next one insert
what it could not. -/
structure Settled : Prop where
  alaCart : Blocked (unsold site (single.map .ofAlaCart) products)
  final : Fits (unsold site (wide.map .ofMain) products) →
    ∀ x ∈ wide, (NewProduct.ofMain x).sold site products = false → Final single main x
  alaCartAfterMain : Fits (unsold site (wide.map .ofMain) products) →
    Blocked ((unsold site (single.map .ofAlaCart) products).filter fun n =>
      !(wide.map NewProduct.ofMain).any fun m => m.samePlace n)
  mainAfterSubscription : ¬ Fits (unsold site (wide.map .ofMain) products) →
    Fits (unsold site (main.map .ofSubscription) products) →
      Blocked ((unsold site (wide.map .ofMain) products).filter fun n =>
        !(main.map NewProduct.ofSubscription).any fun m => m.samePlace n)

variable {site single main wide products} {reportTypes : List (ℕ × Text)} {x : Source}

namespace Sources

variable (h : Sources single main wide)

include h

omit h in
theorem ofSku_row {n : NewProduct} (hid : n.skuID = x.2.id) (id : ℤ) :
    ofSku site (n.row site id) x = true := ofSku_iff.2 ⟨rfl, hid⟩

theorem updated_ofAlaCart (hx : x ∈ single) (id : ℤ) :
    updated site single main ((NewProduct.ofAlaCart x).row site id) ≠
      (NewProduct.ofAlaCart x).row site id := by
  rw [h.updated_of_single hx (ofSku_row rfl id)]
  intro heq
  have htoken := congrArg ProductRow.productToken heq
  cases htoken

theorem updated_ofSubscription (hx : x ∈ main) (id : ℤ) :
    updated site single main ((NewProduct.ofSubscription x).row site id) =
      (NewProduct.ofSubscription x).row site id := by
  rw [h.updated_of_main hx (ofSku_row rfl id)]
  exact if_pos rfl

omit h in
theorem setAlaCart_ofMain_iff {y : Source} {id : ℤ} :
    setAlaCart ((NewProduct.ofMain x).row site id) y = (NewProduct.ofMain x).row site id ↔
      y.1.1.price = x.1.1.price ∧ y.1.1.discountAmount = x.1.1.discountAmount ∧
        y.1.1.productToken = x.1.1.productToken := by
  refine ⟨fun heq => ?_, fun heq => ?_⟩
  · have hdiscount := congrArg ProductRow.discountAmount heq
    have htoken := congrArg ProductRow.productToken heq
    exact ⟨congrArg ProductRow.price heq, Option.some.inj hdiscount, Option.some.inj htoken⟩
  · rw [setAlaCart, heq.1, heq.2.1, heq.2.2]
    rfl

omit h in
theorem setSubscription_ofMain_iff {id : ℤ} :
    setSubscription ((NewProduct.ofMain x).row site id) x = (NewProduct.ofMain x).row site id ↔
      x.1.1.price = 0 ∧ x.1.1.discountAmount = 0 ∧ x.1.1.subscriptionRecurringPrice = 0 := by
  refine ⟨fun heq => ?_, fun heq => ?_⟩
  · have hdiscount := congrArg ProductRow.discountAmount heq
    have hrecurring := congrArg ProductRow.recurringPrice heq
    exact ⟨(congrArg ProductRow.price heq).symm, (Option.some.inj hdiscount).symm,
      Option.some.inj hrecurring⟩
  · unfold setSubscription NewProduct.row NewProduct.ofMain
    simp only [heq]

theorem updated_ofMain_iff (hx : x ∈ wide) (id : ℤ) :
    updated site single main ((NewProduct.ofMain x).row site id) =
      (NewProduct.ofMain x).row site id ↔ Final single main x := by
  by_cases hsingle : ∃ y ∈ single, y.2.id = x.2.id
  · obtain ⟨y, hy, hid⟩ := hsingle
    rw [h.updated_of_single hy (ofSku_row hid.symm id), setAlaCart_ofMain_iff]
    refine ⟨fun heq => ⟨fun z hz hzid => ?_, fun hmain => absurd hid (h.apart y hy x hmain)⟩,
      fun hfinal => hfinal.alaCart y hy hid⟩
    rwa [h.single_eq z hz y hy (hzid.trans hid.symm)]
  have hnone : ∀ y ∈ single, y.2.id ≠ x.2.id := fun y hy hid => hsingle ⟨y, hy, hid⟩
  by_cases hmain : x ∈ main
  · have hext : ((NewProduct.ofMain x).row site id).productExternalID =
        x.1.1.productExternalID := rfl
    rw [h.updated_of_main hmain (ofSku_row rfl id), hext]
    by_cases hsub : x.1.1.productExternalID = x.1.1.subscriptionProductExternalID
    · rw [if_pos hsub, setSubscription_ofMain_iff]
      exact ⟨fun heq => ⟨fun y hy hid => absurd hid (hnone y hy), fun _ _ => heq⟩,
        fun hfinal => hfinal.subscription hmain hsub⟩
    · rw [if_neg hsub, if_pos rfl]
      exact iff_of_true rfl ⟨fun y hy hid => absurd hid (hnone y hy), fun _ hext =>
        absurd hext hsub⟩
  · refine iff_of_true (updated_of_forall (fun y hy => ?_) fun y hy => ?_)
      ⟨fun y hy hid => absurd hid (hnone y hy), fun hx => absurd hx hmain⟩
    · exact Bool.eq_false_iff.2 fun hp => hnone y hy (ofSku_iff.1 hp).2.symm
    · refine Bool.eq_false_iff.2 fun hp => hmain ?_
      rwa [h.wide_eq x hx y (h.mem_wide y hy) (ofSku_iff.1 hp).2]

theorem updated_added_single_iff :
    (∀ p ∈ added site reportTypes (single.map .ofAlaCart) products,
      updated site single main p = p) ↔
        added site reportTypes (single.map .ofAlaCart) products = [] := by
  refine ⟨fun hall => eq_nil_iff_forall_not_mem.2 fun p hp => ?_, fun hnil p hp => ?_⟩
  · have hsame := hall p hp
    obtain ⟨-, n, hn, i, rfl⟩ := mem_added hp
    obtain ⟨x, hx, rfl⟩ := mem_map.1 (mem_unsold.1 hn).1
    exact h.updated_ofAlaCart hx i hsame
  · rw [hnil] at hp
    cases hp

theorem updated_added_wide_iff (hdefault : HasDefault site reportTypes) :
    (∀ p ∈ added site reportTypes (wide.map .ofMain) products, updated site single main p = p) ↔
      (Fits (unsold site (wide.map .ofMain) products) →
        ∀ x ∈ wide, (NewProduct.ofMain x).sold site products = false → Final single main x) := by
  refine ⟨fun hall hfits x hx hsold => ?_, fun hfinal p hp => ?_⟩
  · obtain ⟨m, hm, hkey, i, hi⟩ := exists_mem_added hfits hdefault
      (mem_unsold.2 ⟨mem_map_of_mem hx, hsold⟩)
    obtain ⟨y, hy, rfl⟩ := mem_map.1 (mem_unsold.1 hm).1
    simp only [NewProduct.distinctKey, Prod.mk.injEq] at hkey
    rw [h.wide_eq x hx y hy hkey.1.1.symm]
    exact (h.updated_ofMain_iff hy i).1 (hall _ hi)
  · obtain ⟨⟨hfits, -⟩, n, hn, i, rfl⟩ := mem_added hp
    obtain ⟨hn, hsold⟩ := mem_unsold.1 hn
    obtain ⟨x, hx, rfl⟩ := mem_map.1 hn
    exact (h.updated_ofMain_iff hx i).2 (hfinal hfits x hx hsold)

theorem updated_added_main :
    ∀ p ∈ added site reportTypes (main.map .ofSubscription) products,
      updated site single main p = p := by
  intro p hp
  obtain ⟨-, n, hn, i, rfl⟩ := mem_added hp
  obtain ⟨x, hx, rfl⟩ := mem_map.1 (mem_unsold.1 hn).1
  exact h.updated_ofSubscription hx i

omit h in
theorem inserted_eq_nil_iff (hdefault : HasDefault site reportTypes) :
    inserted site reportTypes single main wide products = [] ↔
      Blocked (unsold site (single.map .ofAlaCart) products) ∧
        Blocked (unsold site (wide.map .ofMain) products) ∧
          Blocked (unsold site (main.map .ofSubscription) products) := by
  simp only [inserted, append_eq_nil_iff, and_assoc]
  rw [added_eq_nil_iff hdefault]
  refine and_congr_right fun hfirst => ?_
  rw [(added_eq_nil_iff hdefault).2 hfirst, append_nil, added_eq_nil_iff hdefault]
  refine and_congr_right fun hsecond => ?_
  rw [(added_eq_nil_iff hdefault).2 hsecond, append_nil, added_eq_nil_iff hdefault]

omit h in
theorem inserted_of_blocked (hdefault : HasDefault site reportTypes)
    (hfirst : Blocked (unsold site (single.map .ofAlaCart) products)) :
    inserted site reportTypes single main wide products =
      inserted₂ site reportTypes main wide products := by
  simp only [inserted, inserted₂, (added_eq_nil_iff hdefault).2 hfirst, append_nil, nil_append]

theorem sold_single_iff (hdefault : HasDefault site reportTypes) (hx : x ∈ single) :
    (NewProduct.ofAlaCart x).sold site
        (products ++ inserted₂ site reportTypes main wide products) = true ↔
      (NewProduct.ofAlaCart x).sold site products = true ∨
        Fits (unsold site (wide.map .ofMain) products) ∧
          ∃ m ∈ wide.map NewProduct.ofMain, m.samePlace (.ofAlaCart x) = true := by
  rw [inserted₂, ← append_assoc, sold_added hdefault, sold_added hdefault]
  refine or_iff_left fun hmain => ?_
  obtain ⟨-, m, hm, hplace⟩ := hmain
  obtain ⟨y, hy, rfl⟩ := mem_map.1 hm
  exact h.apart x hx y hy (samePlace_iff.1 hplace).1.symm

theorem unsold_single_of_fits (hdefault : HasDefault site reportTypes)
    (hfits : Fits (unsold site (wide.map .ofMain) products)) :
    unsold site (single.map .ofAlaCart)
        (products ++ inserted₂ site reportTypes main wide products) =
      (unsold site (single.map .ofAlaCart) products).filter fun n =>
        !(wide.map NewProduct.ofMain).any fun m => m.samePlace n := by
  refine unsold_eq_filter fun n hn => ?_
  obtain ⟨x, hx, rfl⟩ := mem_map.1 hn
  rw [Bool.eq_iff_iff, h.sold_single_iff hdefault hx, Bool.or_eq_true, any_eq_true]
  exact or_congr_right (and_iff_right hfits)

theorem unsold_single_of_not_fits (hdefault : HasDefault site reportTypes)
    (hfits : ¬ Fits (unsold site (wide.map .ofMain) products)) :
    unsold site (single.map .ofAlaCart)
        (products ++ inserted₂ site reportTypes main wide products) =
      unsold site (single.map .ofAlaCart) products := by
  refine filter_congr fun n hn => congrArg not ?_
  obtain ⟨x, hx, rfl⟩ := mem_map.1 hn
  rw [Bool.eq_iff_iff, h.sold_single_iff hdefault hx]
  exact or_iff_left fun hmain => hfits hmain.1

omit h in
theorem blocked_wide_of_fits (hdefault : HasDefault site reportTypes)
    (hfits : Fits (unsold site (wide.map .ofMain) products)) :
    Blocked (unsold site (wide.map .ofMain)
      (products ++ inserted₂ site reportTypes main wide products)) := by
  refine .inl (eq_nil_iff_forall_not_mem.2 fun n hn => ?_)
  obtain ⟨hn, hsold⟩ := mem_unsold.1 hn
  rw [inserted₂, ← append_assoc, sold_append, (sold_added hdefault).2
    (.inr ⟨hfits, n, hn, samePlace_iff.2 ⟨rfl, rfl⟩⟩)] at hsold
  cases hsold

omit h in
theorem inserted₂_of_not_fits (hfits : ¬ Fits (unsold site (wide.map .ofMain) products)) :
    inserted₂ site reportTypes main wide products =
      added site reportTypes (main.map .ofSubscription) products := by
  rw [inserted₂, added_of_not fun hadded => hfits hadded.1, append_nil, nil_append]

omit h in
theorem unsold_wide_of_not_fits (hdefault : HasDefault site reportTypes)
    (hwide : ¬ Fits (unsold site (wide.map .ofMain) products))
    (hmain : Fits (unsold site (main.map .ofSubscription) products)) :
    unsold site (wide.map .ofMain) (products ++ inserted₂ site reportTypes main wide products) =
      (unsold site (wide.map .ofMain) products).filter fun n =>
        !(main.map NewProduct.ofSubscription).any fun m => m.samePlace n := by
  rw [inserted₂_of_not_fits hwide]
  refine unsold_eq_filter fun n _ => ?_
  rw [Bool.eq_iff_iff, sold_added hdefault, Bool.or_eq_true, any_eq_true]
  exact or_congr_right (and_iff_right hmain)

theorem settled_iff (hdefault : HasDefault site reportTypes) :
    ((∀ p ∈ inserted site reportTypes single main wide products, updated site single main p = p) ∧
      inserted site reportTypes single main wide
        (products ++ inserted site reportTypes single main wide products) = []) ↔
      Settled site single main wide products := by
  refine ⟨fun hfixed => ?_, fun hsettled => ?_⟩
  · obtain ⟨hsame, hnil⟩ := hfixed
    have hfirst : Blocked (unsold site (single.map .ofAlaCart) products) := by
      rw [← added_eq_nil_iff hdefault, ← h.updated_added_single_iff]
      exact fun p hp => hsame p (mem_append_left _ (mem_append_left _ hp))
    rw [inserted_of_blocked hdefault hfirst] at hsame hnil
    obtain ⟨hsingle, hwide, -⟩ := (inserted_eq_nil_iff hdefault).1 hnil
    refine ⟨hfirst, (h.updated_added_wide_iff hdefault).1 fun p hp =>
      hsame p (mem_append_left _ hp), fun hfits => ?_, fun hnot hfits => ?_⟩
    · rwa [h.unsold_single_of_fits hdefault hfits] at hsingle
    · rwa [unsold_wide_of_not_fits hdefault hnot hfits] at hwide
  · rw [inserted_of_blocked hdefault hsettled.alaCart]
    refine ⟨fun p hp => ?_, (inserted_eq_nil_iff hdefault).2 ⟨?_, ?_, ?_⟩⟩
    · rcases mem_append.1 hp with hp | hp
      · exact (h.updated_added_wide_iff hdefault).2 hsettled.final p hp
      · exact h.updated_added_main p hp
    · by_cases hfits : Fits (unsold site (wide.map .ofMain) products)
      · rw [h.unsold_single_of_fits hdefault hfits]
        exact hsettled.alaCartAfterMain hfits
      · rw [h.unsold_single_of_not_fits hdefault hfits]
        exact hsettled.alaCart
    · by_cases hfits : Fits (unsold site (wide.map .ofMain) products)
      · exact blocked_wide_of_fits hdefault hfits
      by_cases hmain : Fits (unsold site (main.map .ofSubscription) products)
      · rw [unsold_wide_of_not_fits hdefault hfits hmain]
        exact hsettled.mainAfterSubscription hfits hmain
      · refine .inr ?_
        rwa [inserted₂_of_not_fits hfits, added_of_not fun hadded => hmain hadded.1, append_nil]
    · rw [inserted₂, ← append_assoc]
      exact blocked_added hdefault

theorem refreshFrom_settled_iff (pick pick' : ℕ → ℕ → ℕ) :
    refreshFrom site pick' single main wide reportTypes
        (refreshFrom site pick single main wide reportTypes products) =
      refreshFrom site pick single main wide reportTypes products ↔
    (HasDefault site reportTypes → Settled site single main wide products) := by
  rw [h.refreshFrom_twice_iff]
  by_cases hdefault : HasDefault site reportTypes
  · rw [h.settled_iff hdefault]
    exact ⟨fun hsettled _ => hsettled, fun hsettled => hsettled hdefault⟩
  · have hnone : ∀ new products, added site reportTypes new products = [] :=
      fun new products => added_of_not fun hadded => hdefault hadded.2
    refine iff_of_true ?_ fun hd => absurd hd hdefault
    simp [inserted, hnone]

end Sources

end Settled

section Statement

variable (site : ℕ) (items : List Item) (db : CatalogDb)

/-- Nothing can be inserted for the site, or the products of the entries are settled. -/
def RefreshSettled : Prop :=
  HasDefault site db.reportTypes →
    Settled site (typedSources site items alaCart db.categories (skuKeys site items db))
      (typedSources site items alaCartWithSubscription db.categories (skuKeys site items db))
      (categorySources site items alaCartWithSubscription db.categories (skuKeys site items db))
      db.products

variable {site items db}

/-- A second refresh changes no product, whichever joined rows the server uses, exactly if the
products of the entries are settled. -/
theorem refresh_twice_iff (hkeys : db.Keys) (hitems : OneEach items) :
    (∀ pick pick',
      (spProductRefresh site items pick' (spProductRefresh site items pick db)).products
      = (spProductRefresh site items pick db).products) ↔ RefreshSettled site items db := by
  have hsources := sources hkeys.categories (unique_skuKeys site items hkeys) site hitems
  have htwice : ∀ pick pick',
      (spProductRefresh site items pick' (spProductRefresh site items pick db)).products =
        (spProductRefresh site items pick db).products ↔ RefreshSettled site items db := by
    intro pick pick'
    rw [products_twice, products_spProductRefresh]
    exact hsources.refreshFrom_settled_iff pick pick'
  simp only [htwice, forall_const]

end Statement

def newSite : CatalogDb where
  categories := [{ siteID := 1, id := 1, externalID := 7, categoryName := ['B'], isActive := true }]
  reportTypes := [(1, ['P', 'L'])]

def offer (type : Text) : Item where
  productExternalID := 7
  price := 10000
  subscriptionProductName := ['S']
  discountAmount := 0
  subscriptionProductExternalID := 8
  subscriptionRecurringPrice := 5000
  productType := type
  productToken := ['T']
  title := ['B']

theorem newSite_keys : newSite.Keys := ⟨by unfold Sql.Unique; decide, by unfold Sql.Unique; decide⟩

theorem oneEach_offer (type : Text) : OneEach [offer type] := nodup_singleton _

theorem alaCart_twice_ne_once : newSite.Keys ∧ OneEach [offer alaCart] ∧
    (spProductRefresh 1 [offer alaCart] (fun _ _ => 0)
      (spProductRefresh 1 [offer alaCart] (fun _ _ => 0) newSite)).products ≠
        (spProductRefresh 1 [offer alaCart] (fun _ _ => 0) newSite).products := by
  refine ⟨newSite_keys, oneEach_offer alaCart, ?_⟩
  decide

theorem newSite_settled : RefreshSettled 1 [offer alaCartWithSubscription] newSite := by
  intro _
  have hsingle : typedSources 1 [offer alaCartWithSubscription] alaCart newSite.categories
      (skuKeys 1 [offer alaCartWithSubscription] newSite) = [] := by decide
  refine ⟨.inl (by decide), fun _ x hx _ => ⟨fun y hy => ?_, fun _ hext => ?_⟩,
    fun _ => .inl (by decide), fun hfits => absurd (by unfold Fits; decide) hfits⟩
  · rw [hsingle] at hy
    cases hy
  · obtain ⟨hoffer, -⟩ := mem_categorySources.1 hx
    rw [mem_singleton.1 hoffer] at hext
    exact absurd hext (by decide)

theorem subscription_twice_eq_once :
    newSite.Keys ∧ OneEach [offer alaCartWithSubscription] ∧ ∀ pick pick',
      (spProductRefresh 1 [offer alaCartWithSubscription] pick'
        (spProductRefresh 1 [offer alaCartWithSubscription] pick newSite)).products =
          (spProductRefresh 1 [offer alaCartWithSubscription] pick newSite).products :=
  ⟨newSite_keys, oneEach_offer _, (refresh_twice_iff newSite_keys (oneEach_offer _)).2
    newSite_settled⟩

end AciX.Catalog
