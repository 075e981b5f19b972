import AciX.Catalog.Sku

/-!
# The products of the entries

The updates of a run write to each product what any run writes to it (`updated_updated`), and the
inserts add products after them (`refreshFrom_eq`). So a run after another one can only change what
the first has inserted, or insert more (`refreshFrom_twice_iff`).
-/

namespace AciX.Catalog

open List Sql

section Updates

variable (site : ℕ) (single main : List Source)

def updateSingle : ProductRow → ProductRow := Sql.updateRow (ofSku site) setAlaCart single

def updatePair (p : ProductRow) : ProductRow :=
  Sql.updateRow (ofSubscriptionProduct site) setSubscription main
    (Sql.updateRow (ofMainProduct site) setMain main p)

def updated (p : ProductRow) : ProductRow := updatePair site main (updateSingle site single p)

variable {site single main} {wide : List Source} {p : ProductRow} {x y : Source}

theorem ofSku_iff : ofSku site p x = true ↔ p.siteID = site ∧ p.skuID = x.2.id := by
  rw [ofSku, Bool.and_eq_true, decide_eq_true_eq, decide_eq_true_eq]

theorem id_eq_of_ofSku (hx : ofSku site p x = true) (hy : ofSku site p y = true) :
    x.2.id = y.2.id := (ofSku_iff.1 hx).2.symm.trans (ofSku_iff.1 hy).2

theorem ofMainProduct_iff : ofMainProduct site p x = true ↔
    ofSku site p x = true ∧ p.productExternalID = x.1.1.productExternalID := by
  rw [ofMainProduct, Bool.and_eq_true, decide_eq_true_eq]

theorem ofSubscriptionProduct_iff : ofSubscriptionProduct site p x = true ↔
    ofSku site p x = true ∧ p.productExternalID = x.1.1.subscriptionProductExternalID := by
  rw [ofSubscriptionProduct, Bool.and_eq_true, decide_eq_true_eq]

namespace Sources

variable (h : Sources single main wide)

include h

theorem main_eq (hx : x ∈ main) (hy : y ∈ main) (hid : x.2.id = y.2.id) : x = y :=
  h.wide_eq x (h.mem_wide x hx) y (h.mem_wide y hy) hid

theorem updateSingle_of_mem (hx : x ∈ single) (hp : ofSku site p x = true) :
    updateSingle site single p = setAlaCart p x :=
  updateRow_of_mem hx hp fun y hy hpy => by
    rw [h.single_eq y hy x hx (id_eq_of_ofSku hpy hp)]

theorem updatePair_of_mem (hx : x ∈ main) (hp : ofSku site p x = true) :
    updatePair site main p =
      if p.productExternalID = x.1.1.subscriptionProductExternalID then setSubscription p x
      else if p.productExternalID = x.1.1.productExternalID then setMain p x else p := by
  have hmain : Sql.updateRow (ofMainProduct site) setMain main p =
      if p.productExternalID = x.1.1.productExternalID then setMain p x else p := by
    rw [updateRow_eq_ite hx fun y hy hpy =>
      h.main_eq hy hx (id_eq_of_ofSku (ofMainProduct_iff.1 hpy).1 hp)]
    simp only [ofMainProduct_iff, hp, true_and]
  have hsubscription : ∀ q : ProductRow, ofSku site q x = true →
      Sql.updateRow (ofSubscriptionProduct site) setSubscription main q =
        if q.productExternalID = x.1.1.subscriptionProductExternalID then setSubscription q x
        else q := by
    intro q hq
    rw [updateRow_eq_ite hx fun y hy hqy =>
      h.main_eq hy hx (id_eq_of_ofSku (ofSubscriptionProduct_iff.1 hqy).1 hq)]
    simp only [ofSubscriptionProduct_iff, hq, true_and]
  unfold updatePair
  rw [hmain]
  by_cases hext : p.productExternalID = x.1.1.productExternalID
  · simp only [if_pos hext]
    exact hsubscription (setMain p x) hp
  · simp only [if_neg hext]
    exact hsubscription p hp

omit h in
theorem updateSingle_of_forall (hp : ∀ x ∈ single, ofSku site p x = false) :
    updateSingle site single p = p := updateRow_of_forall hp

omit h in
theorem updatePair_of_forall (hp : ∀ x ∈ main, ofSku site p x = false) :
    updatePair site main p = p := by
  have hmain : Sql.updateRow (ofMainProduct site) setMain main p = p :=
    updateRow_of_forall fun x hx => by rw [ofMainProduct, hp x hx, Bool.false_and]
  unfold updatePair
  rw [hmain]
  exact updateRow_of_forall fun x hx => by rw [ofSubscriptionProduct, hp x hx, Bool.false_and]

theorem updated_of_single (hx : x ∈ single) (hp : ofSku site p x = true) :
    updated site single main p = setAlaCart p x := by
  unfold updated
  rw [h.updateSingle_of_mem hx hp]
  refine updatePair_of_forall fun y hy => ?_
  by_contra hpy
  rw [Bool.not_eq_false] at hpy
  exact h.apart x hx y hy (id_eq_of_ofSku (p := setAlaCart p x) hp hpy)

theorem updated_of_main (hx : x ∈ main) (hp : ofSku site p x = true) :
    updated site single main p =
      if p.productExternalID = x.1.1.subscriptionProductExternalID then setSubscription p x
      else if p.productExternalID = x.1.1.productExternalID then setMain p x else p := by
  have hsingle : updateSingle site single p = p := by
    refine updateSingle_of_forall fun y hy => ?_
    by_contra hpy
    rw [Bool.not_eq_false] at hpy
    exact h.apart y hy x hx (id_eq_of_ofSku hpy hp)
  rw [updated, hsingle, h.updatePair_of_mem hx hp]

omit h in
theorem updated_of_forall (hsingle : ∀ x ∈ single, ofSku site p x = false)
    (hmain : ∀ x ∈ main, ofSku site p x = false) : updated site single main p = p := by
  rw [updated, updateSingle_of_forall hsingle, updatePair_of_forall hmain]

theorem updated_updated :
    updated site single main (updated site single main p) = updated site single main p := by
  by_cases hsingle : ∃ x ∈ single, ofSku site p x = true
  · obtain ⟨x, hx, hp⟩ := hsingle
    rw [h.updated_of_single hx hp]
    exact h.updated_of_single hx hp
  by_cases hmain : ∃ x ∈ main, ofSku site p x = true
  · obtain ⟨x, hx, hp⟩ := hmain
    have hupdated := h.updated_of_main hx hp
    rw [hupdated]
    split_ifs with hsub hext
    · exact (h.updated_of_main (p := setSubscription p x) hx hp).trans (if_pos hsub)
    · exact (h.updated_of_main (p := setMain p x) hx hp).trans ((if_neg hsub).trans (if_pos hext))
    · rw [hupdated, if_neg hsub, if_neg hext]
  · have hsame : updated site single main p = p := by
      refine updated_of_forall (fun x hx => ?_) (fun x hx => ?_)
      · exact Bool.eq_false_iff.2 fun hp => hsingle ⟨x, hx, hp⟩
      · exact Bool.eq_false_iff.2 fun hp => hmain ⟨x, hx, hp⟩
    rw [hsame, hsame]

end Sources

end Updates

section Inserts

variable (site : ℕ) (reportTypes : List (ℕ × Text)) (new : List NewProduct)

def added (products : List ProductRow) : List ProductRow :=
  if insertable site reportTypes (missing site new products) then
    identity (NewProduct.row site) (1 + maxFrom 0 (products.map (·.id)))
      (missing site new products)
  else []

def HasDefault : Prop := ∃ r ∈ reportTypes, r.1 = site ∧ textEq r.2 ['P', 'L'] = true

def Fits (new : List NewProduct) : Prop := ∀ n ∈ new, (rtrim n.productName).length ≤ 50

def Blocked (new : List NewProduct) : Prop := new = [] ∨ ¬ Fits new

def place (p : ProductRow) : ℕ × ℤ × ℤ × ℤ := (p.siteID, p.id, p.skuID, p.productExternalID)

def NewProduct.samePlace (m n : NewProduct) : Bool :=
  m.skuID = n.skuID && m.productExternalID = n.productExternalID

variable {site reportTypes new} {products products' : List ProductRow} {n : NewProduct}

theorem insertProducts_eq :
    insertProducts site reportTypes new products =
      products ++ added site reportTypes new products := by
  unfold insertProducts added
  split_ifs
  · rfl
  · rw [append_nil]

theorem samePlace_iff {m : NewProduct} : m.samePlace n = true ↔
    m.skuID = n.skuID ∧ m.productExternalID = n.productExternalID := by
  rw [NewProduct.samePlace, Bool.and_eq_true, decide_eq_true_eq, decide_eq_true_eq]

theorem sold_iff : n.sold site products = true ↔
    ∃ p ∈ products, p.siteID = site ∧ p.skuID = n.skuID ∧
      p.productExternalID = n.productExternalID := by
  simp only [NewProduct.sold, any_eq_true, Bool.and_eq_true, decide_eq_true_eq, and_assoc]

theorem mem_unsold : n ∈ unsold site new products ↔ n ∈ new ∧ n.sold site products = false := by
  rw [unsold, mem_filter, Bool.not_eq_true']

theorem sold_congr (h : products'.map place = products.map place) :
    n.sold site products' = n.sold site products := by
  have hany := congrArg (List.any · fun q =>
    decide (q.1 = site) && decide (q.2.2.1 = n.skuID) && decide (q.2.2.2 = n.productExternalID)) h
  simp only [any_map] at hany
  exact hany

theorem added_congr (h : products'.map place = products.map place) :
    added site reportTypes new products' = added site reportTypes new products := by
  have hids : products'.map (·.id) = products.map (·.id) := by
    have hmap := congrArg (List.map fun q => q.2.1) h
    rwa [map_map, map_map] at hmap
  have hunsold : unsold site new products' = unsold site new products :=
    filter_congr fun n _ => by rw [sold_congr h]
  unfold added missing
  rw [hids, hunsold]

theorem length_productName {m : NewProduct} (h : m.distinctKey = n.distinctKey) :
    (rtrim m.productName).length = (rtrim n.productName).length := by
  simp only [NewProduct.distinctKey, Prod.mk.injEq] at h
  have hlength := congrArg List.length h.2.2.2.2
  simpa only [collate, length_map] using hlength

theorem exists_missing (h : n ∈ unsold site new products) :
    ∃ m ∈ missing site new products, m.distinctKey = n.distinctKey :=
  exists_mem_distinctOn h

theorem mem_of_mem_missing (h : n ∈ missing site new products) : n ∈ unsold site new products :=
  mem_of_mem_distinctOn h

theorem insertable_missing : insertable site reportTypes (missing site new products) = true ↔
    Fits (unsold site new products) ∧ HasDefault site reportTypes := by
  have hfits : (∀ m ∈ missing site new products, (rtrim m.productName).length ≤ 50) ↔
      Fits (unsold site new products) := by
    refine ⟨fun h n hn => ?_, fun h m hm => h m (mem_of_mem_missing hm)⟩
    obtain ⟨m, hm, hkey⟩ := exists_missing hn
    rw [← length_productName hkey]
    exact h m hm
  rw [← hfits]
  simp only [insertable, HasDefault, Bool.and_eq_true, all_eq_true, any_eq_true, decide_eq_true_eq]

theorem added_of_not (h : ¬ (Fits (unsold site new products) ∧ HasDefault site reportTypes)) :
    added site reportTypes new products = [] := by
  unfold added
  exact if_neg (mt insertable_missing.1 h)

theorem mem_added {p : ProductRow} (h : p ∈ added site reportTypes new products) :
    (Fits (unsold site new products) ∧ HasDefault site reportTypes) ∧
      ∃ n ∈ unsold site new products, ∃ id, p = n.row site id := by
  unfold added at h
  split_ifs at h with hinsert
  · obtain ⟨n, hn, i, -, rfl⟩ := mem_identity h
    exact ⟨insertable_missing.1 hinsert, n, mem_of_mem_missing hn, i, rfl⟩
  · cases h

theorem exists_mem_added (hfits : Fits (unsold site new products))
    (hdefault : HasDefault site reportTypes) (hn : n ∈ unsold site new products) :
    ∃ m ∈ unsold site new products, m.distinctKey = n.distinctKey ∧
      ∃ id, m.row site id ∈ added site reportTypes new products := by
  obtain ⟨m, hm, hkey⟩ := exists_missing hn
  refine ⟨m, mem_of_mem_missing hm, hkey, ?_⟩
  unfold added
  rw [if_pos (insertable_missing.2 ⟨hfits, hdefault⟩)]
  exact exists_mem_identity hm

theorem added_eq_nil_iff (hdefault : HasDefault site reportTypes) :
    added site reportTypes new products = [] ↔ Blocked (unsold site new products) := by
  refine ⟨fun h => ?_, fun h => ?_⟩
  · refine or_iff_not_imp_right.2 fun hfits => eq_nil_iff_forall_not_mem.2 fun n hn => ?_
    obtain ⟨m, -, -, i, hi⟩ := exists_mem_added (not_not.1 hfits) hdefault hn
    rw [h] at hi
    cases hi
  · refine eq_nil_iff_forall_not_mem.2 fun p hp => ?_
    obtain ⟨⟨hfits, -⟩, n, hn, -⟩ := mem_added hp
    rcases h with hnil | hnot
    · rw [hnil] at hn
      cases hn
    · exact hnot hfits

theorem sold_append : n.sold site (products ++ products') =
    (n.sold site products || n.sold site products') := any_append

theorem sold_added (hdefault : HasDefault site reportTypes) :
    n.sold site (products ++ added site reportTypes new products) = true ↔
      n.sold site products = true ∨
        Fits (unsold site new products) ∧ ∃ m ∈ new, m.samePlace n = true := by
  rw [sold_append, Bool.or_eq_true]
  refine ⟨fun h => h.imp_right fun hadded => ?_, fun h => ?_⟩
  · obtain ⟨p, hp, -, hsku, hext⟩ := sold_iff.1 hadded
    obtain ⟨⟨hfits, -⟩, m, hm, i, rfl⟩ := mem_added hp
    exact ⟨hfits, m, (mem_unsold.1 hm).1, samePlace_iff.2 ⟨hsku, hext⟩⟩
  · refine or_iff_not_imp_left.2 fun hnot => ?_
    obtain ⟨hfits, m, hm, hplace⟩ := h.resolve_left hnot
    obtain ⟨hsku, hext⟩ := samePlace_iff.1 hplace
    have hsold : m.sold site products = n.sold site products := by
      unfold NewProduct.sold
      rw [hsku, hext]
    rw [Bool.not_eq_true] at hnot
    obtain ⟨m', -, hkey, i, hi⟩ :=
      exists_mem_added hfits hdefault (mem_unsold.2 ⟨hm, hsold.trans hnot⟩)
    simp only [NewProduct.distinctKey, Prod.mk.injEq] at hkey
    exact sold_iff.2 ⟨_, hi, rfl, hkey.1.1.trans hsku, hkey.1.2.1.trans hext⟩

theorem unsold_eq_filter {q : NewProduct → Bool}
    (h : ∀ n ∈ new, n.sold site products' = (n.sold site products || q n)) :
    unsold site new products' = (unsold site new products).filter fun n => !q n := by
  unfold unsold
  rw [filter_filter]
  refine filter_congr fun n hn => ?_
  rw [h n hn, Bool.not_or, Bool.and_comm]

theorem blocked_added (hdefault : HasDefault site reportTypes) :
    Blocked (unsold site new (products ++ added site reportTypes new products)) := by
  by_cases hfits : Fits (unsold site new products)
  · refine .inl (eq_nil_iff_forall_not_mem.2 fun n hn => ?_)
    obtain ⟨hn, hsold⟩ := mem_unsold.1 hn
    rw [(sold_added hdefault).2 (.inr ⟨hfits, n, hn, samePlace_iff.2 ⟨rfl, rfl⟩⟩)] at hsold
    cases hsold
  · refine .inr ?_
    rwa [added_of_not fun h => hfits h.1, append_nil]

end Inserts

section Fixed

variable (site : ℕ) (reportTypes : List (ℕ × Text)) (single main wide : List Source)

def inserted₂ (products : List ProductRow) : List ProductRow :=
  let first := added site reportTypes (wide.map .ofMain) products
  first ++ added site reportTypes (main.map .ofSubscription) (products ++ first)

def inserted (products : List ProductRow) : List ProductRow :=
  let first := added site reportTypes (single.map .ofAlaCart) products
  let second := added site reportTypes (wide.map .ofMain) (products ++ first)
  first ++ second ++ added site reportTypes (main.map .ofSubscription) (products ++ first ++ second)

variable {site reportTypes single main wide} {products products' : List ProductRow} (p : ProductRow)
  (x : Source)

theorem place_setAlaCart : place (setAlaCart p x) = place p := rfl

theorem place_setMain : place (setMain p x) = place p := rfl

theorem place_setSubscription : place (setSubscription p x) = place p := rfl

theorem place_updateSingle : place (updateSingle site single p) = place p :=
  apply_updateRow place place_setAlaCart p

theorem place_updated : place (updated site single main p) = place p := by
  unfold updated updatePair
  rw [apply_updateRow place place_setSubscription, apply_updateRow place place_setMain,
    place_updateSingle]

theorem map_place {f : ProductRow → ProductRow} (hf : ∀ p, place (f p) = place p) :
    (products.map f).map place = products.map place := by
  rw [map_map]
  exact map_congr_left fun p _ => hf p

theorem inserted_congr (h : products'.map place = products.map place) :
    inserted site reportTypes single main wide products' =
      inserted site reportTypes single main wide products := by
  have hfirst : added site reportTypes (single.map .ofAlaCart) products' =
      added site reportTypes (single.map .ofAlaCart) products := added_congr h
  have happend : ∀ l : List ProductRow, (products' ++ l).map place = (products ++ l).map place := by
    intro l
    rw [map_append, map_append, h]
  unfold inserted
  simp only [hfirst, added_congr (happend _), append_assoc]

theorem map_append_eq_iff {α : Type} {f : α → α} {l m : List α} :
    l.map f ++ m = l ↔ (∀ a ∈ l, f a = a) ∧ m = [] := by
  refine ⟨fun h => ?_, fun h => ?_⟩
  · have hlength := congrArg List.length h
    rw [length_append, length_map] at hlength
    obtain rfl : m = [] := eq_nil_of_length_eq_zero (by omega)
    rw [append_nil] at h
    exact ⟨map_inj_left.1 (h.trans (map_id l).symm), rfl⟩
  · rw [h.2, append_nil]
    exact (map_congr_left h.1).trans (map_id l)

namespace Sources

variable (h : Sources single main wide)

include h

theorem updateFrom_single (pick : ℕ → ℕ) :
    updateFrom pick (ofSku site) setAlaCart single products =
      products.map (updateSingle site single) := by
  refine updateFrom_eq_map fun p _ x hx y hy hpx hpy => ?_
  rw [h.single_eq x hx y hy (id_eq_of_ofSku hpx hpy)]

theorem updateFrom_pair (pick pick' : ℕ → ℕ) :
    updateFrom pick' (ofSubscriptionProduct site) setSubscription main
      (updateFrom pick (ofMainProduct site) setMain main products) =
        products.map (updatePair site main) := by
  rw [updateFrom_eq_map, updateFrom_eq_map, map_map]
  · rfl
  · intro p _ x hx y hy hpx hpy
    rw [h.main_eq hx hy (id_eq_of_ofSku (ofMainProduct_iff.1 hpx).1 (ofMainProduct_iff.1 hpy).1)]
  · intro p _ x hx y hy hpx hpy
    rw [h.main_eq hx hy (id_eq_of_ofSku (ofSubscriptionProduct_iff.1 hpx).1
      (ofSubscriptionProduct_iff.1 hpy).1)]

theorem updatePair_added :
    (added site reportTypes (single.map .ofAlaCart) products).map (updatePair site main) =
      added site reportTypes (single.map .ofAlaCart) products := by
  refine (map_congr_left fun p hp => ?_).trans (map_id _)
  obtain ⟨-, n, hn, i, rfl⟩ := mem_added hp
  obtain ⟨x, hx, rfl⟩ := mem_map.1 (mem_unsold.1 hn).1
  refine updatePair_of_forall fun y hy => ?_
  by_contra hpy
  rw [Bool.not_eq_false] at hpy
  exact h.apart x hx y hy (ofSku_iff.1 hpy).2

theorem refreshFrom_eq (pick : ℕ → ℕ → ℕ) :
    refreshFrom site pick single main wide reportTypes products =
      products.map (updated site single main) ++
        inserted site reportTypes single main wide products := by
  have hsingle : (products.map (updateSingle site single)).map place = products.map place :=
    map_place place_updateSingle
  have hupdated : ∀ l : List ProductRow,
      (products.map (updated site single main) ++ l).map place = (products ++ l).map place := by
    intro l
    rw [map_append, map_append, map_place place_updated]
  simp only [refreshFrom, h.updateFrom_single, h.updateFrom_pair, insertProducts_eq]
  rw [added_congr hsingle, map_append, map_map, h.updatePair_added]
  have hcomp : updatePair site main ∘ updateSingle site single = updated site single main := rfl
  simp only [hcomp, inserted, append_assoc, added_congr (hupdated _)]

/-- Two runs do the same as one iff the second leaves alone what the first has inserted, and inserts
nothing itself. -/
theorem refreshFrom_twice_iff (pick pick' : ℕ → ℕ → ℕ) :
    refreshFrom site pick' single main wide reportTypes
        (refreshFrom site pick single main wide reportTypes products) =
      refreshFrom site pick single main wide reportTypes products ↔
    (∀ p ∈ inserted site reportTypes single main wide products, updated site single main p = p) ∧
      inserted site reportTypes single main wide
        (products ++ inserted site reportTypes single main wide products) = [] := by
  have hplace : (products.map (updated site single main) ++
      inserted site reportTypes single main wide products).map place =
        (products ++ inserted site reportTypes single main wide products).map place := by
    rw [map_append, map_append, map_place place_updated]
  rw [h.refreshFrom_eq pick', h.refreshFrom_eq pick, map_append_eq_iff, inserted_congr hplace]
  refine and_congr_left fun _ => ⟨fun hall p hp => ?_, fun hall p hp => ?_⟩
  · exact hall p (mem_append_right _ hp)
  · rcases mem_append.1 hp with hp | hp
    · obtain ⟨q, -, rfl⟩ := mem_map.1 hp
      exact h.updated_updated
    · exact hall p hp

end Sources

end Fixed

end AciX.Catalog
