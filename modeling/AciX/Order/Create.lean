import AciX.Order.Get

/-!
# Recording an order

`spOrderCreate` gives the order of a document the next id of the day, makes sure that each of its
items has a product, and inserts an order item for every product an item joins. A violated
constraint rolls everything back. The product is looked for by external id and price, and then by
these and a recurring price of zero: `recorded_iff` says when each element still becomes one row.
-/

namespace AciX

open List Sql

structure OrderItemXml where
  orderItemID : ℤ
  productID : ℤ
  referenceID : Text := []
  productTitle : Text := []
  quantity : ℤ := 1
  price : ℤ
  totalPrice : ℤ
  discount : ℤ := 0
  discountDescription : Text := []
  deriving DecidableEq

/-- The order document. One whose values do not convert is rejected before a table is touched. -/
structure OrderXml where
  orderID : ℤ
  userID : ℤ := 0
  visitID : ℤ := 0
  netPrice : ℤ := 0
  items : List OrderItemXml

def baseID (now : ℤ) : ℤ := now / 86400000 * 65536

def fits (n : ℕ) (s : Text) : Bool := (rtrim s).length ≤ n

namespace Db

section Model

variable (db : Db)

def nextOrderID (now : ℤ) : ℤ :=
  1 + maxFrom (baseID now) ((db.orders.map (·.id)).filter (baseID now ≤ ·))

def newOrders (now : ℤ) (siteID : ℕ) (xml : OrderXml) : List OrderRow :=
  distinctOn id (xml.items.flatMap fun t =>
    (leftJoin (fun _ v => v.siteID = siteID && v.id = xml.visitID) [t] db.visits).map
      fun (_, v) =>
        { siteID := siteID
          id := db.nextOrderID now
          externalID := some xml.orderID
          orderDate := some now
          userExternalID := some xml.userID
          userID := v.bind (·.userID)
          visitID := some xml.visitID
          orderTotal := some xml.netPrice })

/-- There is a product of this external id and price, whatever its recurring price. -/
def hasProduct (siteID : ℕ) (t : OrderItemXml) : Bool :=
  db.products.any fun p =>
    p.siteID = siteID && p.productExternalID = t.productID && p.price = t.price

def productKey (t : OrderItemXml) : ℤ × ℤ × ℤ × Text :=
  (t.productID, t.price, t.discount, collate t.productTitle)

def newProducts (siteID : ℕ) (xml : OrderXml) : List ProductRow :=
  identity
    (fun t id =>
      { siteID := siteID
        id := id
        skuID := 0
        productExternalID := t.productID
        price := t.price
        discountAmount := some t.discount
        recurringPrice := some 0
        productName := some (varchar 50 t.productTitle)
        reportTypeCode := some "PL".toList })
    (1 + maxFrom 0 (db.products.map (·.id)))
    (distinctOn productKey (xml.items.filter fun t => !db.hasProduct siteID t))

def joinsProduct (siteID : ℕ) (t : OrderItemXml) (p : ProductRow) : Bool :=
  p.siteID = siteID && p.productExternalID = t.productID && p.price = t.price &&
    eqNull p.recurringPrice (some 0)

def itemRow (siteID : ℕ) (queryID : Option ℤ) (profileID : Option Text) (t : OrderItemXml)
    (o : OrderRow) (p : ProductRow) (sr : Option SearchResultsRow) : OrderItemRow :=
  { siteID := siteID
    id := 0
    orderID := o.id
    externalID := some t.orderItemID
    productID := some p.id
    productExternalID := some t.productID
    referenceID := some (varchar 50 t.referenceID)
    quantity := some t.quantity
    price := some t.totalPrice
    discountAmount := some t.discount
    discountDescription := some (varchar 255 t.discountDescription)
    queryID := queryID
    profileID := profileID.map fun s => char 11 (varchar 20 s)
    state := sr.bind fun sr => sr.state.map (char 2) }

def rowsOf (siteID : ℕ) (orderID : ℤ) (queryID : Option ℤ) (profileID : Option Text)
    (t : OrderItemXml) : List OrderItemRow :=
  (db.orders.filter fun o => o.siteID = siteID && eqNull o.externalID (some orderID)).flatMap
    fun o => (db.products.filter (joinsProduct siteID t)).flatMap fun p =>
      (db.skus.filter fun s => s.siteID = p.siteID && s.id = p.skuID).flatMap fun _ =>
        ((leftJoin (fun _ sr => eqNull (some sr.id) queryID) [()] db.searchResults).filter
          fun _ => !db.orderItems.any fun oi => oi.siteID = siteID && oi.orderID = o.id &&
            eqNull oi.externalID (some t.orderItemID)).map
              fun (_, sr) => itemRow siteID queryID profileID t o p sr

/-- The columns `SELECT DISTINCT` compares when order items are inserted: all but the id, the texts
up to their collation. -/
def itemKey (i : OrderItemRow) : OrderItemRow :=
  { i with
    referenceID := i.referenceID.map collate
    discountDescription := i.discountDescription.map collate
    profileID := i.profileID.map collate
    state := i.state.map collate }

def setItemID (i : OrderItemRow) (id : ℤ) : OrderItemRow := { i with id := id }

def newItems (siteID : ℕ) (xml : OrderXml) (queryID : Option ℤ) (profileID : Option Text) :
    List OrderItemRow :=
  identity setItemID (1 + maxFrom 0 (db.orderItems.map (·.id)))
    (distinctOn itemKey
      (xml.items.flatMap (db.rowsOf siteID xml.orderID queryID profileID)))

def ordersOk (new : List OrderRow) : Bool :=
  Sql.Unique (fun o : OrderRow => (o.siteID, o.id)) (db.orders ++ new) &&
    Sql.Unique (fun o : OrderRow => (o.siteID, o.externalID)) (db.orders ++ new)

/-- The title fits its column, and the foreign keys to the sku and the report type hold. -/
def productsOk (siteID : ℕ) (xml : OrderXml) : Bool :=
  (xml.items.filter fun t => !db.hasProduct siteID t).all fun t =>
    fits 50 t.productTitle && (db.skus.any fun s => s.siteID = siteID && s.id = 0) &&
      db.reportTypes.any fun r => r.siteID = siteID && textEq r.typeCode "PL".toList

/-- The quantity and the texts of an element that becomes a row fit their columns. -/
def itemsOk (siteID : ℕ) (xml : OrderXml) (queryID : Option ℤ) (profileID : Option Text) : Bool :=
  xml.items.all fun t => (db.rowsOf siteID xml.orderID queryID profileID t).isEmpty ||
    (-32768 ≤ t.quantity && t.quantity ≤ 32767 && fits 50 t.referenceID &&
      fits 255 t.discountDescription && fits 11 (varchar 20 (profileID.getD [])))

def withOrder (now : ℤ) (siteID : ℕ) (xml : OrderXml) : Db :=
  { db with orders := db.orders ++ db.newOrders now siteID xml }

def withProducts (siteID : ℕ) (xml : OrderXml) : Db :=
  { db with products := db.products ++ db.newProducts siteID xml }

def withItems (siteID : ℕ) (xml : OrderXml) (queryID : Option ℤ) (profileID : Option Text) : Db :=
  { db with orderItems := db.orderItems ++ db.newItems siteID xml queryID profileID }

def prepared (now : ℤ) (siteID : ℕ) (xml : OrderXml) : Db :=
  (db.withOrder now siteID xml).withProducts siteID xml

/-- The id returned and the tables after the transaction; on an error they are as before. Numbers
are not bounded here; `IdCall.exec` adds the overflow of the id. -/
def spOrderCreate (now : ℤ) (siteID : ℕ) (xml : OrderXml) (queryID : Option ℤ)
    (profileID : Option Text) : Except Exn (ℤ × Db) :=
  if !db.ordersOk (db.newOrders now siteID xml) then .error .sql
  else if !db.productsOk siteID xml then .error .sql
  else if !(db.prepared now siteID xml).itemsOk siteID xml queryID profileID then .error .sql
  else .ok (db.nextOrderID now,
    (db.prepared now siteID xml).withItems siteID xml queryID profileID)

/-- The tables after the call, and the id it returned or the error it raised: `XACT_ABORT` rolls
back what was inserted before the error. -/
def createOrder (now : ℤ) (siteID : ℕ) (xml : OrderXml) (queryID : Option ℤ)
    (profileID : Option Text) : Db × Except Exn ℤ :=
  match db.spOrderCreate now siteID xml queryID profileID with
  | .error e => (db, .error e)
  | .ok (id, db') => (db', .ok id)

/-- A row that would be inserted violates a constraint. -/
def Rejects (now : ℤ) (siteID : ℕ) (xml : OrderXml) (queryID : Option ℤ)
    (profileID : Option Text) : Prop :=
  db.ordersOk (db.newOrders now siteID xml) = false ∨ db.productsOk siteID xml = false ∨
    (db.prepared now siteID xml).itemsOk siteID xml queryID profileID = false

structure Records (siteID : ℕ) (orderID : ℤ) (t : OrderItemXml) (i : OrderItemRow) : Prop where
  siteID : i.siteID = siteID
  orderID : i.orderID = orderID
  externalID : i.externalID = some t.orderItemID
  productExternalID : i.productExternalID = some t.productID
  quantity : i.quantity = some t.quantity
  price : i.price = some t.totalPrice

/-- One order was added, with the id `id`, and one row for each element of the document. -/
def Recorded (siteID : ℕ) (xml : OrderXml) (id : ℤ) (db' : Db) : Prop :=
  (∃ o : OrderRow, o.siteID = siteID ∧ o.id = id ∧ db'.orders = db.orders ++ [o]) ∧
    ∃ is, db'.orderItems = db.orderItems ++ is ∧
      List.Forall₂ (Records siteID id) xml.items is

/-- The order is refused and nothing is stored, or it is stored completely. -/
def AllOrNothing (now : ℤ) (siteID : ℕ) (xml : OrderXml) (queryID : Option ℤ)
    (profileID : Option Text) : Prop :=
  let r := db.createOrder now siteID xml queryID profileID
  (r.1 = db ∧ ∃ e, r.2 = .error e) ∨ ∃ id, r.2 = .ok id ∧ db.Recorded siteID xml id r.1

/-- The element `t` of the document joins one product: of those there are, one has no recurring
price; and if there is none yet, the elements that ask for it describe it alike. -/
def OneProduct (siteID : ℕ) (xml : OrderXml) (t : OrderItemXml) : Prop :=
  if db.hasProduct siteID t then (db.products.filter (joinsProduct siteID t)).length = 1
  else ∀ t' ∈ xml.items, t'.productID = t.productID → t'.price = t.price →
    t'.discount = t.discount ∧ textEq t'.productTitle t.productTitle = true

end Model

variable {db db' : Db} {now : ℤ} {siteID : ℕ} {xml : OrderXml} {queryID : Option ℤ}
  {profileID : Option Text} {id : ℤ}

theorem spOrderCreate_ok_iff : db.spOrderCreate now siteID xml queryID profileID = .ok (id, db')
      ↔ ¬ db.Rejects now siteID xml queryID profileID ∧ id = db.nextOrderID now ∧
        db' = (db.prepared now siteID xml).withItems siteID xml queryID profileID := by
  unfold spOrderCreate Rejects
  cases db.ordersOk (db.newOrders now siteID xml)
  · simp
  cases db.productsOk siteID xml
  · simp
  cases (db.prepared now siteID xml).itemsOk siteID xml queryID profileID
  · simp
  · simp [eq_comm]

theorem spOrderCreate_orders
    (h : db.spOrderCreate now siteID xml queryID profileID = .ok (id, db')) :
    id = db.nextOrderID now ∧ db'.orders = db.orders ++ db.newOrders now siteID xml := by
  obtain ⟨-, hid, rfl⟩ := spOrderCreate_ok_iff.1 h
  exact ⟨hid, rfl⟩

theorem lt_nextOrderID {o : OrderRow} (ho : o ∈ db.orders) : o.id < db.nextOrderID now :=
  lt_maxFrom_filter (mem_map_of_mem ho)

def orderRow (db : Db) (now : ℤ) (siteID : ℕ) (xml : OrderXml) : OrderRow :=
  { siteID := siteID
    id := db.nextOrderID now
    externalID := some xml.orderID
    orderDate := some now
    userExternalID := some xml.userID
    userID := (db.visits.find? fun v => v.siteID = siteID && v.id = xml.visitID).bind (·.userID)
    visitID := some xml.visitID
    orderTotal := some xml.netPrice }

theorem newOrders_eq (hk : db.OrderKeys) (hne : xml.items ≠ []) :
    db.newOrders now siteID xml = [db.orderRow now siteID xml] := by
  have hj : ∀ t : OrderItemXml,
      leftJoin (fun _ v => v.siteID = siteID && v.id = xml.visitID) [t] db.visits
        = [(t, db.visits.find? fun v => v.siteID = siteID && v.id = xml.visitID)] := by
    intro t
    refine leftJoin_unique hk.visits fun b _ c _ hb hc => ?_
    simp only [Bool.and_eq_true, decide_eq_true_eq] at hb hc
    rw [hb.1, hb.2, hc.1, hc.2]
  unfold newOrders
  simp only [hj, map_cons, map_nil]
  refine distinctOn_of_forall_eq (by simpa using exists_mem_of_ne_nil _ hne) fun o ho => ?_
  obtain ⟨t, -, ht⟩ := mem_flatMap.1 ho
  simpa [orderRow] using ht

theorem newOrders_nil (h : xml.items = []) : db.newOrders now siteID xml = [] := by
  simp [newOrders, h, distinctOn]

theorem mem_newProducts {p : ProductRow} (h : p ∈ db.newProducts siteID xml) :
    ∃ t ∈ xml.items, db.hasProduct siteID t = false ∧ p.siteID = siteID ∧ p.skuID = 0 ∧
      p.productExternalID = t.productID ∧ p.price = t.price ∧ ∀ p' ∈ db.products, p'.id < p.id := by
  obtain ⟨t, ht, i, hi, rfl⟩ := mem_identity h
  have ht := mem_of_mem_distinctOn ht
  simp only [mem_filter, Bool.not_eq_true'] at ht
  refine ⟨t, ht.1, ht.2, rfl, rfl, rfl, rfl, fun p' hp' => ?_⟩
  have := le_maxFrom (b := 0) (mem_map_of_mem (f := fun p : ProductRow => p.id) hp')
  show p'.id < i
  omega

theorem prepared_keys (hk : db.OrderKeys) (ho : db.ordersOk (db.newOrders now siteID xml) = true)
    (hp : db.productsOk siteID xml = true) : (db.prepared now siteID xml).OrderKeys := by
  simp only [ordersOk, Bool.and_eq_true, decide_eq_true_eq] at ho
  refine ⟨ho.1, ho.2, hk.orderItems, ?_, hk.skus, hk.searchResults, hk.visits, ?_, ?_⟩
  · refine hk.products.append ((unique_identity (fun _ _ => rfl) _ _).of_key
      fun a b h => congrArg Prod.snd h) fun a ha b hb hab => ?_
    obtain ⟨-, -, -, -, -, -, -, hlt⟩ := mem_newProducts hb
    have := hlt a ha
    simp only [Prod.mk.injEq] at hab
    omega
  · intro i hi
    obtain ⟨o, ho, h⟩ := hk.itemOrder i hi
    exact ⟨o, mem_append_left _ ho, h⟩
  · intro p hpm
    rcases mem_append.1 hpm with h | h
    · exact hk.productSku p h
    · obtain ⟨t, ht, hn, hs, hsku, -⟩ := mem_newProducts h
      have hn : db.hasProduct siteID t = false := hn
      have := all_eq_true.1 hp t (by simp [ht, hn])
      simp only [Bool.and_eq_true, any_eq_true, decide_eq_true_eq] at this
      obtain ⟨s, hsm, hs', hid⟩ := this.1.2
      exact ⟨s, hsm, by rw [hs', hs], by rw [hid, hsku]⟩

section Rows

variable (hk : db.OrderKeys) {o : OrderRow} (ho : o ∈ db.orders)
include hk ho

theorem rowsOf_eq {orderID : ℤ} (hx : o.externalID = some orderID)
    (hn : ∀ i ∈ db.orderItems, i.siteID = o.siteID → i.orderID ≠ o.id) (t : OrderItemXml) :
    db.rowsOf o.siteID orderID queryID profileID t
      = (db.products.filter (joinsProduct o.siteID t)).map fun p =>
          itemRow o.siteID queryID profileID t o p
            (db.searchResults.find? fun sr => eqNull (some sr.id) queryID) := by
  have horders : db.orders.filter (fun o' => o'.siteID = o.siteID &&
      eqNull o'.externalID (some orderID)) = [o] := by
    refine hk.ordersExternal.filter_eq_singleton ho fun b _ => ?_
    simp [eqNull_iff, hx]
  have hsr : leftJoin (fun _ sr => eqNull (some sr.id) queryID) [()] db.searchResults
      = [((), db.searchResults.find? fun sr => eqNull (some sr.id) queryID)] := by
    refine leftJoin_unique hk.searchResults fun b _ c _ hb hc => ?_
    obtain ⟨x, hx, hq⟩ := eqNull_iff.1 hb
    obtain ⟨y, hy, hq'⟩ := eqNull_iff.1 hc
    simp only [hq, Option.some.injEq] at hx hy hq'
    rw [hx, hy, hq']
  have hnone : (db.orderItems.any fun oi => oi.siteID = o.siteID && oi.orderID = o.id &&
      eqNull oi.externalID (some t.orderItemID)) = false := by
    simp only [any_eq_false, Bool.and_eq_true, decide_eq_true_eq]
    exact fun i hi h => hn i hi h.1.1 h.1.2
  have hsku : ∀ p ∈ db.products, ∃ s,
      db.skus.filter (fun s => s.siteID = p.siteID && s.id = p.skuID) = [s] := by
    intro p hp
    obtain ⟨s, hs, h1, h2⟩ := hk.productSku p hp
    refine ⟨s, hk.skus.filter_eq_singleton hs fun b _ => ?_⟩
    simp [h1, h2]
  unfold rowsOf
  simp only [horders, hsr, hnone, flatMap_cons, flatMap_nil, append_nil]
  rw [map_eq_flatMap]
  refine flatMap_congr fun p hp => ?_
  obtain ⟨s, hs⟩ := hsku p (mem_filter.1 hp).1
  simp [hs]

theorem newItems_eq (hx : o.externalID = some xml.orderID) (hs : o.siteID = siteID)
    (hn : ∀ i ∈ db.orderItems, i.siteID = o.siteID → i.orderID ≠ o.id)
    (hnd : (xml.items.map (·.orderItemID)).Nodup) :
    db.newItems siteID xml queryID profileID
      = identity setItemID (1 + maxFrom 0 (db.orderItems.map (·.id)))
          (xml.items.flatMap fun t => (db.products.filter (joinsProduct siteID t)).map fun p =>
            itemRow siteID queryID profileID t o p
              (db.searchResults.find? fun sr => eqNull (some sr.id) queryID)) := by
  subst hs
  unfold newItems
  simp only [funext (rowsOf_eq hk ho hx hn)]
  rw [distinctOn_of_unique]
  have hkey : Sql.Unique (fun i : OrderItemRow => (i.externalID, i.productID))
      (xml.items.flatMap fun t => (db.products.filter (joinsProduct o.siteID t)).map fun p =>
        itemRow o.siteID queryID profileID t o p
          (db.searchResults.find? fun sr => eqNull (some sr.id) queryID)) := by
    unfold Sql.Unique
    rw [map_flatMap, nodup_flatMap]
    refine ⟨fun t _ => ?_, ?_⟩
    · rw [map_map]
      refine (nodup_map_iff_inj_on (hk.products.nodup.filter _)).2 fun p hp p' hp' h => ?_
      simp only [mem_filter, joinsProduct, Bool.and_eq_true, decide_eq_true_eq] at hp hp'
      refine hk.products.eq hp.1 hp'.1 ?_
      simp only [Function.comp_apply, itemRow, Prod.mk.injEq, Option.some.injEq, true_and] at h
      rw [h, hp.2.1.1.1, hp'.2.1.1.1]
    · refine (pairwise_map.1 hnd).imp fun {t t'} hne => ?_
      intro x hx hx'
      simp only [mem_map] at hx hx'
      obtain ⟨_, ⟨p, -, rfl⟩, rfl⟩ := hx
      obtain ⟨_, ⟨p', -, rfl⟩, h⟩ := hx'
      simp only [itemRow, Prod.mk.injEq, Option.some.injEq] at h
      exact hne h.1.symm
  refine hkey.of_key fun a b h => ?_
  unfold itemKey at h
  injection h with _ _ _ h1 _ h2
  rw [h1, h2]

end Rows

/-- Whether each row of a list comes from an element of its own can be read off how many rows
each element contributes. -/
theorem length_eq_one_of_map_eq {α β γ : Type*} {f : α → β} {rows : α → List γ} :
    ∀ {l : List α}, (l.map f).Nodup →
      l.map f = l.flatMap (fun a => List.replicate (rows a).length (f a)) →
      ∀ a ∈ l, (rows a).length = 1
  | b :: l, hnd, h, a, ha => by
    rw [map_cons, nodup_cons] at hnd
    rw [map_cons, flatMap_cons] at h
    rcases hn : (rows b).length with _ | _ | n
    · rw [hn, replicate_zero, nil_append] at h
      have hb : f b ∈ l.flatMap fun a => List.replicate (rows a).length (f a) := h ▸ mem_cons_self
      obtain ⟨c, hc, hbc⟩ := mem_flatMap.1 hb
      exact absurd (mem_map.2 ⟨c, hc, (eq_of_mem_replicate hbc).symm⟩) hnd.1
    · rw [hn] at h
      simp only [zero_add, replicate_one, singleton_append, List.cons.injEq, true_and] at h
      rcases mem_cons.1 ha with rfl | ha
      · exact hn
      · exact length_eq_one_of_map_eq hnd.2 h a ha
    · rw [hn, replicate_succ, replicate_succ, cons_append, cons_append, List.cons.injEq] at h
      have hb : f b ∈ l.map f := h.2 ▸ mem_cons_self
      exact absurd hb hnd.1

theorem hasProduct_congr {t t' : OrderItemXml} (h1 : t'.productID = t.productID)
    (h2 : t'.price = t.price) : db.hasProduct siteID t' = db.hasProduct siteID t := by
  simp only [hasProduct, h1, h2]

theorem productKey_eq_iff {t t' : OrderItemXml} :
    productKey t' = productKey t ↔ (t'.productID = t.productID ∧ t'.price = t.price) ∧
      t'.discount = t.discount ∧ textEq t'.productTitle t.productTitle = true := by
  simp [productKey, textEq_iff, and_assoc]

theorem length_needed_eq_one_iff {items : List OrderItemXml} {t : OrderItemXml} (ht : t ∈ items) :
    ((distinctOn productKey items).filter fun t' =>
        t'.productID = t.productID && t'.price = t.price).length = 1
      ↔ ∀ t' ∈ items, t'.productID = t.productID → t'.price = t.price →
        t'.discount = t.discount ∧ textEq t'.productTitle t.productTitle = true := by
  have hrep : ∀ t' ∈ items, t'.productID = t.productID → t'.price = t.price →
      ∃ r ∈ (distinctOn productKey items).filter fun t' =>
        t'.productID = t.productID && t'.price = t.price, productKey r = productKey t' := by
    intro t' ht' h1 h2
    obtain ⟨r, hr, hkey⟩ : ∃ r ∈ distinctOn productKey items, productKey r = productKey t' :=
      exists_mem_distinctOn ht'
    have := (productKey_eq_iff.1 hkey).1
    exact ⟨r, by simp [hr, this.1, this.2, h1, h2], hkey⟩
  refine ⟨fun h t' ht' h1 h2 => ?_, fun h => ?_⟩
  · obtain ⟨r, hr⟩ := length_eq_one_iff.1 h
    obtain ⟨a, ha, hat⟩ := hrep t' ht' h1 h2
    obtain ⟨b, hb, hbt⟩ := hrep t ht rfl rfl
    rw [hr, mem_singleton] at ha hb
    have : productKey t' = productKey t := by rw [← hat, ← hbt, ha, hb]
    exact (productKey_eq_iff.1 this).2
  · obtain ⟨r, hr, hrt⟩ := hrep t ht rfl rfl
    have hu : Sql.Unique productKey (distinctOn productKey items) := unique_distinctOn items
    rw [hu.filter_eq_singleton (a := r) (mem_filter.1 hr).1 fun b hb => ?_]
    · rfl
    · simp only [Bool.and_eq_true, decide_eq_true_eq, hrt, productKey_eq_iff]
      exact ⟨fun hbt => ⟨hbt, h b (mem_of_mem_distinctOn hb) hbt.1 hbt.2⟩, fun hbt => hbt.1⟩

theorem oneProduct_iff {t : OrderItemXml} (ht : t ∈ xml.items) :
    ((db.prepared now siteID xml).products.filter (joinsProduct siteID t)).length = 1
      ↔ db.OneProduct siteID xml t := by
  have happ : (db.prepared now siteID xml).products = db.products ++ db.newProducts siteID xml :=
    rfl
  rw [happ, filter_append, length_append]
  unfold OneProduct
  split_ifs with h
  · have : (db.newProducts siteID xml).filter (joinsProduct siteID t) = [] := by
      refine filter_eq_nil_iff.2 fun p hp hj => ?_
      obtain ⟨t', -, hn, -, -, h1, h2, -⟩ := mem_newProducts hp
      simp only [joinsProduct, Bool.and_eq_true, decide_eq_true_eq] at hj
      rw [hasProduct_congr (h1.symm.trans hj.1.1.2) (h2.symm.trans hj.1.2), h] at hn
      cases hn
    rw [this, length_nil, Nat.add_zero]
  · have hold : db.products.filter (joinsProduct siteID t) = [] := by
      refine filter_eq_nil_iff.2 fun p hp hj => h ?_
      simp only [joinsProduct, Bool.and_eq_true, decide_eq_true_eq] at hj
      exact any_eq_true.2 ⟨p, hp, by simp [hj.1.1.1, hj.1.1.2, hj.1.2]⟩
    have hnew : ((db.newProducts siteID xml).filter (joinsProduct siteID t)).length
        = ((distinctOn productKey (xml.items.filter fun t => !db.hasProduct siteID t)).filter
            fun t' => t'.productID = t.productID && t'.price = t.price).length := by
      refine length_filter_identity fun t' i => ?_
      simp [joinsProduct]
    rw [hold, length_nil, Nat.zero_add, hnew, length_needed_eq_one_iff (by simp [ht, h])]
    refine forall_congr' fun t' => ⟨fun h' ht' h1 h2 => ?_, fun h' ht' => ?_⟩
    · exact h' (by simp [ht', hasProduct_congr h1 h2, h]) h1 h2
    · exact h' (mem_filter.1 ht').1

theorem forall₂_flatMap {α β : Type*} {R : α → β → Prop} {f : α → List β} :
    ∀ {l : List α}, (∀ a ∈ l, ∃ b, f a = [b] ∧ R a b) → List.Forall₂ R l (l.flatMap f)
  | [], _ => .nil
  | a :: l, h => by
    obtain ⟨b, hb, hR⟩ := h a (by simp)
    rw [flatMap_cons, hb]
    exact .cons hR (forall₂_flatMap fun a' ha' => h a' (by simp [ha']))

theorem externalIDs_of_records {orderID : ℤ} {ts : List OrderItemXml} {is : List OrderItemRow}
    (h : List.Forall₂ (Records siteID orderID) ts is) :
    is.map (·.externalID) = ts.map fun t => some t.orderItemID := by
  induction h with
  | nil => rfl
  | cons hd _ ih => rw [map_cons, map_cons, hd.externalID, ih]

theorem externalID_setItemID (i : OrderItemRow) (id : ℤ) :
    (setItemID i id).externalID = i.externalID := rfl

theorem records_setItemID {orderID : ℤ} (t : OrderItemXml) (i : OrderItemRow) (id : ℤ)
    (h : Records siteID orderID t i) : Records siteID orderID t (setItemID i id) :=
  ⟨h.siteID, h.orderID, h.externalID, h.productExternalID, h.quantity, h.price⟩

section Recording

variable (hk : db.OrderKeys) (hne : xml.items ≠ [])
  (hr : ¬ db.Rejects now siteID xml queryID profileID)
include hk

theorem orderRow_mem (hne : xml.items ≠ []) :
    db.orderRow now siteID xml ∈ (db.prepared now siteID xml).orders := by
  show _ ∈ db.orders ++ db.newOrders now siteID xml
  rw [newOrders_eq hk hne]
  simp

theorem items_of_next :
    ∀ i ∈ db.orderItems, i.siteID = siteID → i.orderID ≠ db.nextOrderID now := by
  intro i hi _ hid
  obtain ⟨o, ho, -, hoid⟩ := hk.itemOrder i hi
  have hlt : o.id < db.nextOrderID now := lt_nextOrderID ho
  omega

include hr

theorem prepared_keys_of_accepted : (db.prepared now siteID xml).OrderKeys := by
  unfold Rejects at hr
  simp only [not_or, Bool.not_eq_false] at hr
  exact prepared_keys hk hr.1 hr.2.1

include hne

theorem newItems_of_accepted (hnd : (xml.items.map (·.orderItemID)).Nodup) :
    (db.prepared now siteID xml).newItems siteID xml queryID profileID
      = identity setItemID (1 + maxFrom 0 (db.orderItems.map (·.id)))
          (xml.items.flatMap fun t =>
            ((db.prepared now siteID xml).products.filter (joinsProduct siteID t)).map fun p =>
              itemRow siteID queryID profileID t (db.orderRow now siteID xml) p
                (db.searchResults.find? fun sr => eqNull (some sr.id) queryID)) := by
  exact newItems_eq (prepared_keys_of_accepted hk hr) (orderRow_mem hk hne) rfl rfl
    (items_of_next hk) hnd

theorem mem_newItems {i : OrderItemRow}
    (hi : i ∈ (db.prepared now siteID xml).newItems siteID xml queryID profileID) :
    i.siteID = siteID ∧ i.orderID = db.nextOrderID now ∧ (∀ i' ∈ db.orderItems, i'.id < i.id)
      ∧ ∃ p ∈ (db.prepared now siteID xml).products,
        p.siteID = siteID ∧ i.productID = some p.id := by
  have hp := prepared_keys_of_accepted hk hr
  obtain ⟨i₀, hi₀, id, hid, rfl⟩ := mem_identity hi
  obtain ⟨t, -, ht⟩ := mem_flatMap.1 (mem_of_mem_distinctOn hi₀)
  have hrows : (db.prepared now siteID xml).rowsOf siteID xml.orderID queryID profileID t = _ :=
    rowsOf_eq hp (orderRow_mem hk hne) rfl (items_of_next hk) t
  obtain ⟨p, hpm, rfl⟩ := mem_map.1 (hrows ▸ ht)
  simp only [mem_filter, joinsProduct, Bool.and_eq_true, decide_eq_true_eq] at hpm
  refine ⟨rfl, rfl, fun i' hi' => ?_, p, hpm.1, hpm.2.1.1.1, rfl⟩
  have := le_maxFrom (b := 0) (mem_map_of_mem (f := fun i : OrderItemRow => i.id) hi')
  have : 1 + maxFrom 0 (db.orderItems.map (·.id)) ≤ id := hid
  show i'.id < id
  omega

theorem recorded_iff (hnd : (xml.items.map (·.orderItemID)).Nodup) :
    db.Recorded siteID xml (db.nextOrderID now)
        ((db.prepared now siteID xml).withItems siteID xml queryID profileID)
      ↔ ∀ t ∈ xml.items, db.OneProduct siteID xml t := by
  have hitems := newItems_of_accepted hk hne hr hnd
  refine ⟨fun ⟨_, is, his, hrec⟩ => ?_, fun h => ⟨⟨db.orderRow now siteID xml, rfl, rfl, ?_⟩, ?_⟩⟩
  · have hcancel : (db.prepared now siteID xml).newItems siteID xml queryID profileID = is :=
      append_cancel_left his
    have hids := externalIDs_of_records hrec
    rw [← hcancel, hitems, map_identity externalID_setItemID, map_flatMap] at hids
    have hnd' : (xml.items.map fun t => some t.orderItemID).Nodup := by
      simpa [Function.comp_def] using hnd.map (Option.some_injective ℤ)
    have hrep : xml.items.map (fun t => some t.orderItemID) = xml.items.flatMap fun t =>
        List.replicate ((db.prepared now siteID xml).products.filter
          (joinsProduct siteID t)).length (some t.orderItemID) := by
      refine hids.symm.trans (flatMap_congr fun t _ => ?_)
      simp only [map_map, Function.comp_def, itemRow, map_const']
    exact fun t ht => (oneProduct_iff ht).1 (length_eq_one_of_map_eq hnd' hrep t ht)
  · show db.orders ++ db.newOrders now siteID xml = _
    rw [newOrders_eq hk hne]
  · refine ⟨_, rfl, ?_⟩
    rw [hitems]
    refine Sql.forall₂_identity records_setItemID (forall₂_flatMap fun t ht => ?_) _
    have hone : ((db.prepared now siteID xml).products.filter (joinsProduct siteID t)).length = 1 :=
      (oneProduct_iff ht).2 (h t ht)
    obtain ⟨p, hp⟩ := length_eq_one_iff.1 hone
    exact ⟨_, by rw [hp]; rfl, rfl, rfl, rfl, rfl, rfl, rfl⟩

end Recording

theorem newItems_nil (h : xml.items = []) : db.newItems siteID xml queryID profileID = [] := by
  simp [newItems, h, distinctOn, identity]

theorem createOrder_keys (hk : db.OrderKeys) :
    (db.createOrder now siteID xml queryID profileID).1.OrderKeys := by
  unfold createOrder
  split
  · exact hk
  · rename_i id db' h
    obtain ⟨hr, -, rfl⟩ := spOrderCreate_ok_iff.1 h
    have hp := prepared_keys_of_accepted hk hr
    by_cases hne : xml.items = []
    · refine ⟨hp.orders, hp.ordersExternal, ?_, hp.products, hp.skus, hp.searchResults, hp.visits,
        ?_, hp.productSku⟩ <;>
      simp only [withItems, newItems_nil hne, append_nil]
      · exact hp.orderItems
      · exact hp.itemOrder
    · refine ⟨hp.orders, hp.ordersExternal, ?_, hp.products, hp.skus, hp.searchResults, hp.visits,
        fun i hi => ?_, hp.productSku⟩
      · refine hp.orderItems.append ((unique_identity (fun _ _ => rfl) _ _).of_key
          fun a b h => congrArg Prod.snd h) fun a ha b hb hab => ?_
        have := (mem_newItems hk hne hr hb).2.2.1 a ha
        simp only [Prod.mk.injEq] at hab
        omega
      · rcases mem_append.1 hi with hi | hi
        · exact hp.itemOrder i hi
        · obtain ⟨hs, ho, -⟩ := mem_newItems hk hne hr hi
          exact ⟨_, orderRow_mem hk hne, hs.symm, ho.symm⟩

theorem createOrder_tables : ∃ orders products items,
    (db.createOrder now siteID xml queryID profileID).1
      = { db with orders := orders, products := products, orderItems := items } := by
  unfold createOrder
  split
  · exact ⟨db.orders, db.products, db.orderItems, rfl⟩
  · rename_i id db' h
    obtain ⟨-, -, rfl⟩ := spOrderCreate_ok_iff.1 h
    exact ⟨_, _, _, rfl⟩

theorem spOrderCreate_keys (hk : db.OrderKeys)
    (h : db.spOrderCreate now siteID xml queryID profileID = .ok (id, db')) : db'.OrderKeys := by
  have hkeys : (db.createOrder now siteID xml queryID profileID).1.OrderKeys := createOrder_keys hk
  rwa [createOrder, h] at hkeys

theorem orderOf_created (hk : db.OrderKeys)
    (h : db.spOrderCreate now siteID xml queryID profileID = .ok (id, db')) :
    (∃ e, db'.orderOf siteID id = some e) ↔ xml.items ≠ [] := by
  obtain ⟨hid, horders⟩ := spOrderCreate_orders h
  refine ⟨fun ⟨e, he⟩ hnil => ?_, fun hne => ?_⟩
  · obtain ⟨o, ho, -, hoid, -⟩ := orderOf_some he
    rw [horders, newOrders_nil hnil, append_nil] at ho
    have hlt : o.id < db.nextOrderID now := lt_nextOrderID ho
    omega
  · have hm : db.orderRow now siteID xml ∈ db'.orders := by
      rw [horders, newOrders_eq hk hne]
      simp
    have he := orderOf_eq (spOrderCreate_keys hk h) hm
    rw [hid]
    exact ⟨_, he⟩

def ItemsHaveProducts (db : Db) : Prop :=
  ∀ i ∈ db.orderItems, ∀ k, i.productID = some k → ∃ p ∈ db.products, p.siteID = i.siteID ∧ p.id = k

instance (db : Db) : Decidable db.ItemsHaveProducts :=
  decidable_of_iff (∀ i ∈ db.orderItems, ∀ k ∈ i.productID, ∃ p ∈ db.products,
    p.siteID = i.siteID ∧ p.id = k) Iff.rfl

theorem newItems_ne_nil {i : OrderItemRow} (h : i ∈ db.newItems siteID xml queryID profileID) :
    xml.items ≠ [] := by
  intro hnil
  rw [newItems_nil hnil] at h
  cases h

theorem createOrder_itemsHaveProducts (hk : db.OrderKeys) (hf : db.ItemsHaveProducts) :
    (db.createOrder now siteID xml queryID profileID).1.ItemsHaveProducts := by
  unfold createOrder
  split
  · exact hf
  · rename_i id db' h
    obtain ⟨hr, -, rfl⟩ := spOrderCreate_ok_iff.1 h
    intro i hi k hik
    rcases mem_append.1 hi with hi | hi
    · obtain ⟨p, hp, hpk⟩ := hf i hi k hik
      exact ⟨p, mem_append_left _ hp, hpk⟩
    · obtain ⟨hs, -, -, p, hp, hps, hpi⟩ := mem_newItems hk (newItems_ne_nil hi) hr hi
      rw [hpi, Option.some.injEq] at hik
      exact ⟨p, hp, hps.trans hs.symm, hik⟩

section Stored

variable (hk : db.OrderKeys) (hf : db.ItemsHaveProducts)
  (hr : ¬ db.Rejects now siteID xml queryID profileID)

include hf

theorem itemRows_created {i : OrderItemRow} (hi : i ∈ db.orderItems) :
    ((db.prepared now siteID xml).withItems siteID xml queryID profileID).itemRows i.siteID i
      = db.itemRows i.siteID i := by
  have hnew : (db.newProducts siteID xml).filter
      (fun p => p.siteID = i.siteID && eqNull (some p.id) i.productID) = [] := by
    refine filter_eq_nil_iff.2 fun p hp h => ?_
    simp only [Bool.and_eq_true, eqNull_iff] at h
    obtain ⟨-, k, hpk, hik⟩ := h
    obtain ⟨p', hp', -, hp'k⟩ := hf i hi k hik
    obtain ⟨-, -, -, -, -, -, -, hlt⟩ := mem_newProducts hp
    have := hlt p' hp'
    simp only [Option.some.injEq] at hpk
    omega
  have hproducts : ((db.prepared now siteID xml).withItems siteID xml queryID profileID).products
      = db.products ++ db.newProducts siteID xml := rfl
  unfold itemRows
  rw [hproducts, filter_append, hnew, append_nil]
  rfl

include hk hr

theorem itemsOf_created {s : ℕ} {k : ℤ} (h : k < db.nextOrderID now) :
    ((db.prepared now siteID xml).withItems siteID xml queryID profileID).itemsOf s k
      = db.itemsOf s k := by
  have hnew : ((db.prepared now siteID xml).newItems siteID xml queryID profileID).filter
      (fun oi => oi.siteID = s && oi.orderID = k) = [] := by
    refine filter_eq_nil_iff.2 fun i hi h' => ?_
    have := (mem_newItems hk (newItems_ne_nil hi) hr hi).2.1
    simp only [Bool.and_eq_true, decide_eq_true_eq] at h'
    omega
  have hitems : ((db.prepared now siteID xml).withItems siteID xml queryID profileID).orderItems
      = db.orderItems ++ (db.prepared now siteID xml).newItems siteID xml queryID profileID := rfl
  unfold itemsOf
  rw [hitems, filter_append, hnew, append_nil]
  refine flatMap_congr fun i hi => ?_
  simp only [mem_filter, Bool.and_eq_true, decide_eq_true_eq] at hi
  rw [← hi.2.1]
  exact itemRows_created hf hi.1

end Stored

theorem orderOf_createOrder (hk : db.OrderKeys) (hf : db.ItemsHaveProducts) {s : ℕ} {k : ℤ}
    {e : DBOrder} (he : db.orderOf s k = some e) :
    (db.createOrder now siteID xml queryID profileID).1.orderOf s k = some e := by
  unfold createOrder
  split
  · exact he
  · rename_i id db' h
    obtain ⟨hr, -, rfl⟩ := spOrderCreate_ok_iff.1 h
    obtain ⟨o, ho, -, hid, -⟩ := orderOf_some he
    have hlt : o.id < db.nextOrderID now := lt_nextOrderID ho
    unfold orderOf at he ⊢
    obtain ⟨o', ho', rfl⟩ := Option.map_eq_some_iff.1 he
    have hfind : ((db.prepared now siteID xml).withItems siteID xml queryID
        profileID).orders.find? (fun o => o.siteID = s && o.id = k) = some o' := by
      show (db.orders ++ db.newOrders now siteID xml).find? _ = _
      rw [find?_append, ho', Option.some_or]
    rw [hfind, itemsOf_created hk hf hr (by omega)]
    rfl

/-- An order document with items is refused as a whole or stored completely exactly if a declared
constraint refuses it or each of its elements joins one product. -/
theorem allOrNothing_iff (hk : db.OrderKeys) (hne : xml.items ≠ [])
    (hnd : (xml.items.map (·.orderItemID)).Nodup) :
    db.AllOrNothing now siteID xml queryID profileID
      ↔ db.Rejects now siteID xml queryID profileID ∨
        ∀ t ∈ xml.items, db.OneProduct siteID xml t := by
  by_cases hr : db.Rejects now siteID xml queryID profileID
  · refine ⟨fun _ => .inl hr, fun _ => .inl ?_⟩
    unfold createOrder
    split
    · rename_i e _
      exact ⟨rfl, e, rfl⟩
    · rename_i id db' h
      exact absurd hr (spOrderCreate_ok_iff.1 h).1
  · have hok := spOrderCreate_ok_iff.2 ⟨hr, rfl, rfl⟩
    simp only [AllOrNothing, createOrder, hok, hr, false_or, reduceCtorEq, exists_false, and_false,
      Except.ok.injEq]
    rw [← recorded_iff hk hne hr hnd]
    exact ⟨fun ⟨id, hid, h⟩ => hid ▸ h, fun h => ⟨_, rfl, h⟩⟩

end Db

namespace OrderWorld

def createFromIwsOrder (w : OrderWorld) (now : ℤ) (ctx : CallContext) (xml : OrderXml)
    (queryID : Option ℤ) (profileID : Option Text) : OrderWorld × Except Exn ℤ :=
  let r := w.db.createOrder now ctx.siteID xml queryID profileID
  ({ w with db := r.1 }, r.2)

end OrderWorld

def oneProductDb (recurringPrice : ℤ) : Db where
  skus := [{ siteID := 1, id := 0 }]
  products := [{ siteID := 1, id := 1, skuID := 0, productExternalID := 7, price := 10000,
                 recurringPrice := some recurringPrice }]

def oneItemXml : OrderXml where
  orderID := 500
  items := [{ orderItemID := 900, productID := 7, price := 10000, totalPrice := 10000 }]

theorem oneProductDb_allOrNothing : (oneProductDb 0).AllOrNothing 0 1 oneItemXml none none :=
  (Db.allOrNothing_iff (by decide) (by decide) (by decide)).2 (.inr (by
    intro t ht
    obtain rfl := mem_singleton.1 ht
    exact rfl))

/-- The product has a recurring price: the order is stored and its item is lost. -/
theorem oneProductDb_item_lost :
    (oneProductDb 49900).OrderKeys ∧
    (((oneProductDb 49900).createOrder 0 1 oneItemXml none none).2 = .ok 1) ∧
    ((oneProductDb 49900).createOrder 0 1 oneItemXml none none).1.orderItems = [] ∧
    ¬ (oneProductDb 49900).AllOrNothing 0 1 oneItemXml none none := by
  have hok : ((oneProductDb 49900).createOrder 0 1 oneItemXml none none).2 = .ok 1 := by decide
  refine ⟨by decide, hok, by decide, ?_⟩
  rintro (⟨-, e, he⟩ | ⟨id, -, -, is, his, hrec⟩)
  · rw [hok] at he
    cases he
  · obtain rfl : is = [] := his.symm
    cases hrec

end AciX
