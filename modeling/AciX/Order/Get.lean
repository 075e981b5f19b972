import AciX.Cache.Entity
import AciX.Context
import AciX.Except

/-!
# Reading orders

`spOrderGet` joins the order rows and their items with the catalog and the query they were bought
for; `SiteOrderCache` keeps what it returns; `orderGet` renders it. Rendering reads the middle
initial without a null test and looks the state's name up; an item that it can render is
`Renderable`.
-/

namespace AciX

open EntityCache List

structure DBOrderItem where
  siteID : ℕ
  orderItemID : ℤ
  orderItemExternalID : ℤ
  orderID : ℤ
  skuID : ℤ
  productID : ℤ
  productExternalID : ℤ
  columns : ItemColumns
  quantity : ℤ
  regularPrice : ℤ
  price : ℤ
  discountAmount : ℤ
  recurringPrice : ℤ
  queryID : Option ℤ
  profileID : Option Text
  firstName : Option Text
  middleInitial : Option Text
  lastName : Option Text
  state : Option Text
  reportTypeCode : Option Text
  deriving DecidableEq

structure DBOrder where
  siteID : ℕ
  orderID : ℤ
  orderExternalID : ℤ
  userID : ℤ
  visitID : ℤ
  orderDate : Option ℤ
  orderTotal : ℤ
  items : List DBOrderItem
  deriving DecidableEq

namespace Db

variable (db : Db)

def queryNames (queryID : Option ℤ) :
    List (Option SearchResultsRow × Option NameRow × Option NameRow) :=
  (Sql.leftJoin (fun _ sr => Sql.eqNull (some sr.id) queryID) [()] db.searchResults).flatMap
    fun (_, sr) =>
      (Sql.leftJoin (fun _ fn => Sql.eqNull (sr.bind (·.firstNameID)) (some fn.id)) [()]
        db.firstNames).flatMap fun (_, fn) =>
          (Sql.leftJoin (fun _ ln => Sql.eqNull (sr.bind (·.lastNameID)) (some ln.id)) [()]
            db.lastNames).map fun (_, ln) => (sr, fn, ln)

def itemRows (siteID : ℕ) (oi : OrderItemRow) : List DBOrderItem :=
  (db.products.filter fun p => p.siteID = siteID && Sql.eqNull (some p.id) oi.productID).flatMap
    fun p => (db.skus.filter fun s => s.siteID = siteID && s.id = p.skuID).flatMap fun s =>
      (db.categories.filter fun c => c.siteID = siteID && Sql.eqNull (some c.id)
        s.categoryID).flatMap
        fun _ => (db.queryNames oi.queryID).map fun (sr, fn, ln) =>
          { siteID := oi.siteID
            orderItemID := oi.id
            orderItemExternalID := oi.externalID.getD 0
            orderID := oi.orderID
            skuID := p.skuID
            productID := oi.productID.getD 0
            productExternalID := oi.productExternalID.getD 0
            columns := db.itemColumns oi.id
            quantity := oi.quantity.getD 0
            regularPrice := s.price.getD 0
            price := oi.price.getD 0
            discountAmount := oi.discountAmount.getD 0
            recurringPrice := p.recurringPrice.getD 0
            queryID := oi.queryID
            profileID := oi.profileID
            firstName := fn.bind (·.name)
            middleInitial := sr.bind (·.middleInitial)
            lastName := ln.bind (·.name)
            state := oi.state
            reportTypeCode := p.reportTypeCode }

def spOrderGetItems (siteID : ℕ) (keys : List ℤ) : List DBOrderItem :=
  (db.orderItems.filter (·.siteID = siteID)).flatMap fun oi =>
    (keys.filter (· = oi.orderID)).flatMap fun _ => db.itemRows siteID oi

def spOrderGetOrders (siteID : ℕ) (keys : List ℤ) : List OrderRow :=
  (db.orders.filter (·.siteID = siteID)).flatMap fun o =>
    (keys.filter (· = o.id)).map fun _ => o

def readOrder (items : List DBOrderItem) (o : OrderRow) : DBOrder :=
  { siteID := o.siteID
    orderID := o.id
    orderExternalID := o.externalID.getD 0
    userID := o.userID.getD 0
    visitID := o.visitID.getD 0
    orderDate := o.orderDate
    orderTotal := o.orderTotal.getD 0
    items := items.filter (·.orderID = o.id) }

def spOrderGet (siteID : ℕ) (keys : List ℤ) : List DBOrder :=
  (db.spOrderGetOrders siteID keys).map (readOrder (db.spOrderGetItems siteID keys))

def siteOrderCache (siteID : ℕ) : EntityCache ℤ DBOrder where
  getFromDB := db.spOrderGet siteID
  getKey := DBOrder.orderID

/-- The items of the order `orderID` as `spOrderGet` returns them when it is asked for once. -/
def itemsOf (siteID : ℕ) (orderID : ℤ) : List DBOrderItem :=
  (db.orderItems.filter fun oi => oi.siteID = siteID && oi.orderID = orderID).flatMap
    (db.itemRows siteID)

def orderOf (siteID : ℕ) (orderID : ℤ) : Option DBOrder :=
  (db.orders.find? fun o => o.siteID = siteID && o.id = orderID).map fun o =>
    readOrder (db.itemsOf siteID orderID) o

def stateByAbbr (abbr : Text) : Except Exn Text :=
  match db.geoStates.find? fun s => toUpper s.1 = toUpper abbr with
  | some s => .ok s.2
  | none => .error .keyNotFound

def inState (state : Option Text) : Except Exn Text :=
  if isNullOrWhiteSpace state then .ok []
  else (db.stateByAbbr (state.getD [])).map (" in ".toList ++ ·)

def itemName (i : DBOrderItem) : Except Exn Text :=
  match i.firstName with
  | none => .ok (i.columns.productName.getD [])
  | some first =>
    match i.middleInitial with
    | none => .error .nullReference
    | some m => (db.inState i.state).map fun state =>
        i.columns.productName.getD [] ++ " for ".toList ++ first ++
          (if m.all isSpace then [] else ' ' :: m) ++ ' ' :: i.lastName.getD [] ++ state

def renderItem (i : DBOrderItem) : Except Exn OrderItem := do
  let name ← db.itemName i
  pure
    { orderItemID := i.orderItemID
      orderItemExternalID := i.orderItemExternalID
      orderID := i.orderID
      productID := i.productID
      productExternalID := i.productExternalID
      productToken := i.columns.productToken
      offerToken := i.columns.offerToken
      skuID := i.skuID
      productName := some name
      productType := i.columns.productType
      productCode := i.columns.productCode
      skuCode := i.columns.skuCode
      quantity := i.quantity
      regularPrice := i.regularPrice
      price := i.price
      discountAmount := i.discountAmount
      recurringPrice := i.recurringPrice
      firstName := i.firstName
      middleInitial := i.middleInitial
      lastName := i.lastName
      state := i.state
      profileID := i.profileID
      queryID := i.queryID.getD 0
      reportTypeCode := i.reportTypeCode }

def renderOrder (o : DBOrder) : Except Exn Order := do
  let items ← o.items.mapM db.renderItem
  pure
    { orderID := o.orderID
      orderExternalID := o.orderExternalID
      orderDate := o.orderDate
      orderTotal := o.orderTotal
      visitID := o.visitID
      userID := o.userID
      items := items }

/-- Rendering an item for a person needs a middle initial, and a known state or none. -/
def ItemRenderable (i : DBOrderItem) : Prop :=
  i.firstName ≠ none → i.middleInitial ≠ none ∧ (isNullOrWhiteSpace i.state = false →
    ∃ s ∈ db.geoStates, toUpper s.1 = toUpper (i.state.getD []))

def Renderable (o : DBOrder) : Prop := ∀ i ∈ o.items, db.ItemRenderable i

variable {db} {siteID : ℕ} {i : DBOrderItem}

theorem mem_itemRows {oi : OrderItemRow}
    (h : i ∈ db.itemRows siteID oi) : i.orderID = oi.orderID := by
  simp only [itemRows, mem_flatMap, mem_map] at h
  obtain ⟨p, -, s, -, c, -, q, -, rfl⟩ := h
  rfl

theorem filter_itemRows (siteID : ℕ) (oi : OrderItemRow) (k : ℤ) :
    (db.itemRows siteID oi).filter (·.orderID = k)
      = if oi.orderID = k then db.itemRows siteID oi else [] := by
  split_ifs with h
  · refine filter_eq_self.2 fun i hi => ?_
    simp [mem_itemRows hi, h]
  · refine filter_eq_nil_iff.2 fun i hi => ?_
    simp [mem_itemRows hi, h]

theorem filter_itemsOf (siteID : ℕ) (k : ℤ) :
    (db.itemsOf siteID k).filter (·.orderID = k) = db.itemsOf siteID k := by
  refine filter_eq_self.2 fun i hi => ?_
  simp only [itemsOf, mem_flatMap, mem_filter, Bool.and_eq_true, decide_eq_true_eq] at hi
  obtain ⟨oi, ⟨-, -, ho⟩, hi⟩ := hi
  simp [mem_itemRows hi, ho]

theorem filter_spOrderGetItems {keys : List ℤ} (hn : keys.Nodup) {k : ℤ} (hk : k ∈ keys) :
    (db.spOrderGetItems siteID keys).filter (·.orderID = k) = db.itemsOf siteID k := by
  have hl : ∀ oi : OrderItemRow, ((keys.filter (· = oi.orderID)).flatMap fun _ =>
      db.itemRows siteID oi).filter (·.orderID = k)
        = if oi.orderID = k then db.itemRows siteID oi else [] := by
    intro oi
    rw [filter_flatMap]
    simp only [filter_itemRows]
    split_ifs with h
    · have : keys.filter (· = oi.orderID) = [k] := by
        subst h
        have hu : Sql.Unique (id : ℤ → ℤ) keys := by simpa [Sql.Unique] using hn
        exact hu.filter_eq_singleton hk fun b _ => by simp
      rw [this]
      simp
    · simp
  rw [spOrderGetItems, filter_flatMap, itemsOf]
  simp only [hl]
  induction db.orderItems with
  | nil => rfl
  | cons oi rest ih =>
    simp only [filter_cons]
    by_cases hs : oi.siteID = siteID <;> by_cases ho : oi.orderID = k <;> simp [hs, ho, ih]

theorem mem_spOrderGetOrders {keys : List ℤ} {o : OrderRow} :
    o ∈ db.spOrderGetOrders siteID keys ↔ o ∈ db.orders ∧ o.siteID = siteID ∧ o.id ∈ keys := by
  simp only [spOrderGetOrders, mem_flatMap, mem_filter, mem_map, decide_eq_true_eq]
  constructor
  · rintro ⟨o', ⟨h1, h2⟩, k, ⟨h3, rfl⟩, rfl⟩
    exact ⟨h1, h2, h3⟩
  · rintro ⟨h1, h2, h3⟩
    exact ⟨o, ⟨h1, h2⟩, o.id, ⟨h3, rfl⟩, rfl⟩

theorem orderOf_eq (hk : db.OrderKeys) {o : OrderRow} (ho : o ∈ db.orders) :
    db.orderOf o.siteID o.id = some (readOrder (db.itemsOf o.siteID o.id) o) := by
  unfold orderOf
  rw [hk.orders.find?_eq ho (by simp) fun b _ hb => by simpa using hb]
  rfl

theorem orderOf_some {k : ℤ} {e : DBOrder} (h : db.orderOf siteID k = some e) :
    ∃ o ∈ db.orders, o.siteID = siteID ∧ o.id = k ∧ e = readOrder (db.itemsOf siteID k) o := by
  unfold orderOf at h
  obtain ⟨o, ho, rfl⟩ := Option.map_eq_some_iff.1 h
  have hp := find?_some ho
  simp only [Bool.and_eq_true, decide_eq_true_eq] at hp
  exact ⟨o, mem_of_find?_eq_some ho, hp.1, hp.2, rfl⟩

theorem siteOrderCache_reads (hk : db.OrderKeys) (siteID : ℕ) :
    (db.siteOrderCache siteID).Reads (db.orderOf siteID) := by
  constructor
  · intro keys e hn
    have hitems : ∀ o : OrderRow, o.id ∈ keys →
        readOrder (db.spOrderGetItems siteID keys) o = readOrder (db.itemsOf siteID o.id) o := by
      intro o ho
      simp only [readOrder, filter_spOrderGetItems hn ho, filter_itemsOf]
    simp only [siteOrderCache, spOrderGet, mem_map]
    constructor
    · rintro ⟨o, ho, rfl⟩
      obtain ⟨h1, rfl, h3⟩ := mem_spOrderGetOrders.1 ho
      exact ⟨o.id, h3, by rw [orderOf_eq hk h1, hitems o h3]⟩
    · rintro ⟨k, hkm, hf⟩
      obtain ⟨o, h1, rfl, rfl, rfl⟩ := orderOf_some hf
      exact ⟨o, mem_spOrderGetOrders.2 ⟨h1, rfl, hkm⟩, hitems o hkm⟩
  · intro k e h
    obtain ⟨o, -, -, rfl, rfl⟩ := orderOf_some h
    rfl

theorem stateByAbbr_ok_iff {abbr : Text} :
    (∃ t, db.stateByAbbr abbr = .ok t) ↔ ∃ s ∈ db.geoStates, toUpper s.1 = toUpper abbr := by
  unfold stateByAbbr
  split
  · rename_i s h
    have hp := find?_some h
    simp only [decide_eq_true_eq] at hp
    exact ⟨fun _ => ⟨s, mem_of_find?_eq_some h, hp⟩, fun _ => ⟨_, rfl⟩⟩
  · rename_i h
    simp only [find?_eq_none, decide_eq_true_eq] at h
    exact ⟨fun ⟨t, ht⟩ => (by cases ht), fun ⟨s, hs, he⟩ => absurd he (h s hs)⟩

theorem inState_ok_iff {state : Option Text} :
    (∃ t, db.inState state = .ok t) ↔ (isNullOrWhiteSpace state = false →
      ∃ s ∈ db.geoStates, toUpper s.1 = toUpper (state.getD [])) := by
  rw [← stateByAbbr_ok_iff]
  unfold inState
  cases isNullOrWhiteSpace state
  · rw [if_neg (by simp), exists_map_ok_iff]
    exact ⟨fun h _ => h, fun h => h rfl⟩
  · rw [if_pos rfl]
    exact ⟨fun _ h => (by cases h), fun _ => ⟨_, rfl⟩⟩

theorem itemName_ok_iff : (∃ t, db.itemName i = .ok t) ↔ db.ItemRenderable i := by
  unfold itemName ItemRenderable
  rcases i.firstName with _ | first
  · exact ⟨fun _ h => absurd rfl h, fun _ => ⟨_, rfl⟩⟩
  rcases i.middleInitial with _ | m
  · exact ⟨fun ⟨t, ht⟩ => (by cases ht), fun h => absurd rfl (h (by simp)).1⟩
  · simp only [exists_map_ok_iff]
    rw [inState_ok_iff]
    exact ⟨fun h _ => ⟨by simp, h⟩, fun h => (h (by simp)).2⟩

theorem renderItem_ok_iff : (∃ t, db.renderItem i = .ok t) ↔ db.ItemRenderable i := by
  rw [← itemName_ok_iff]
  unfold renderItem
  constructor
  · rintro ⟨t, h⟩
    obtain ⟨n, hn, -⟩ := bind_ok_iff.1 h
    exact ⟨n, hn⟩
  · rintro ⟨n, hn⟩
    exact ⟨_, bind_ok_iff.2 ⟨n, hn, rfl⟩⟩

theorem renderOrder_ok_iff {o : DBOrder} : (∃ c, db.renderOrder o = .ok c) ↔ db.Renderable o := by
  have hitems : (∃ is, o.items.mapM db.renderItem = .ok is) ↔ db.Renderable o := by
    rw [exists_mapM_ok_iff]
    exact forall₂_congr fun i _ => renderItem_ok_iff
  rw [← hitems]
  unfold renderOrder
  constructor
  · rintro ⟨c, h⟩
    obtain ⟨is, his, -⟩ := bind_ok_iff.1 h
    exact ⟨is, his⟩
  · rintro ⟨is, his⟩
    exact ⟨_, bind_ok_iff.2 ⟨is, his, rfl⟩⟩

theorem renderOrder_header {o : DBOrder} {c : Order} (h : db.renderOrder o = .ok c) :
    c.orderID = o.orderID ∧ c.orderExternalID = o.orderExternalID ∧ c.userID = o.userID
      ∧ c.visitID = o.visitID ∧ c.orderDate = o.orderDate ∧ c.orderTotal = o.orderTotal := by
  unfold renderOrder at h
  obtain ⟨is, -, h⟩ := bind_ok_iff.1 h
  cases h
  exact ⟨rfl, rfl, rfl, rfl, rfl, rfl⟩

end Db

structure OrderWorld where
  db : Db
  orderCache : ℕ → Store ℤ DBOrder

namespace OrderWorld

variable (w : OrderWorld)

def setCache (siteID : ℕ) (s : Store ℤ DBOrder) : OrderWorld :=
  { w with orderCache := Function.update w.orderCache siteID s }

def orderGet (ctx : CallContext) (keys : List ℤ) : OrderWorld × Except Exn (List Order) :=
  let r := (w.db.siteOrderCache ctx.siteID).getMany false keys (w.orderCache ctx.siteID)
  (w.setCache ctx.siteID r.1, r.2.mapM w.db.renderOrder)

def OrdersCached (siteID : ℕ) : Prop :=
  Coherent (w.db.orderOf siteID) (w.orderCache siteID)

variable {w}

theorem orderGet_eq {ctx : CallContext} (hk : w.db.OrderKeys) (hc : w.OrdersCached ctx.siteID)
    (keys : List ℤ) :
    (w.orderGet ctx keys).2
      = ((distinct keys).filterMap (w.db.orderOf ctx.siteID)).mapM w.db.renderOrder := by
  simp only [orderGet, (getMany_coherent (Db.siteOrderCache_reads hk ctx.siteID) hc false keys).1]

theorem OrdersCached.setCache (h : ∀ s, w.OrdersCached s) {siteID : ℕ} {keys : List ℤ}
    {s' : Store ℤ DBOrder}
    (hadds : Adds (w.db.orderOf siteID) keys (w.orderCache siteID) s') (s : ℕ) :
    (w.setCache siteID s').OrdersCached s := by
  show Coherent (w.db.orderOf s) (Function.update w.orderCache siteID s' s)
  by_cases hs : s = siteID
  · subst hs
    rw [Function.update_self]
    exact (h s).adds hadds
  · rw [Function.update_of_ne hs]
    exact h s

theorem orderGet_mem {ctx : CallContext} (hk : w.db.OrderKeys) (hc : w.OrdersCached ctx.siteID)
    {keys : List ℤ} {cs : List Order} (h : (w.orderGet ctx keys).2 = .ok cs) {c : Order}
    (hcs : c ∈ cs) :
    ∃ o ∈ w.db.orders, o.siteID = ctx.siteID ∧ o.id ∈ keys
      ∧ w.db.renderOrder (Db.readOrder (w.db.itemsOf o.siteID o.id) o) = .ok c := by
  rw [orderGet_eq hk hc] at h
  obtain ⟨e, he, hr⟩ := mem_of_mapM_ok h hcs
  obtain ⟨k, hkm, hf⟩ := mem_filterMap.1 he
  obtain ⟨o, h1, h2, rfl, rfl⟩ := Db.orderOf_some hf
  exact ⟨o, h1, h2, mem_distinct.1 hkm, h2 ▸ hr⟩

end OrderWorld

end AciX
