import AciX.Report.Create

/-!
# Reading an order just created

Checkout creates the order and looks it up in the order cache. `report/new` looks up any id it is
asked for, so a request for an order that does not exist yet leaves a marker under the id of an
order to come. The lookup of a new order returns it exactly if it was stored, can be rendered, and
no marker stands under its id (`created_readable_iff`).
-/

namespace AciX

open EntityCache

namespace OrderWorld

/-- From `w` to `w'` orders were only looked up: the tables of the orders are the same, and the
entries added to the cache agree with them. -/
structure Looks (w w' : OrderWorld) : Prop where
  tables : ∃ reports, w'.db = { w.db with reports := reports }
  cache : ∀ s k v, w'.orderCache s k = some v →
    w.orderCache s k = some v ∨ Agrees (w.db.orderOf s) k v

structure Inv (w : OrderWorld) : Prop where
  keys : w.db.OrderKeys
  itemProducts : w.db.ItemsHaveProducts
  cached : ∀ s k e, w.orderCache s k = some (.entity e) → w.db.orderOf s k = some e

variable {w w' w'' : OrderWorld}

theorem Looks.refl (w : OrderWorld) : w.Looks w := ⟨⟨w.db.reports, rfl⟩, fun _ _ _ h => .inl h⟩

theorem Looks.trans (h : w.Looks w') (h' : w'.Looks w'') : w.Looks w'' := by
  obtain ⟨reports, hr⟩ := h.tables
  obtain ⟨reports', hr'⟩ := h'.tables
  refine ⟨⟨reports', by rw [hr', hr]⟩, fun s k v hv => ?_⟩
  rcases h'.cache s k v hv with hv | hv
  · exact h.cache s k v hv
  · rw [hr] at hv
    exact .inr hv

theorem Looks.keys (h : w.Looks w') (hk : w.db.OrderKeys) : w'.db.OrderKeys := by
  obtain ⟨reports, hr⟩ := h.tables
  rw [hr]
  exact ⟨hk.orders, hk.ordersExternal, hk.orderItems, hk.products, hk.skus, hk.searchResults,
    hk.visits, hk.itemOrder, hk.productSku⟩

theorem Looks.inv (h : w.Looks w') (hI : w.Inv) : w'.Inv := by
  obtain ⟨reports, hr⟩ := h.tables
  refine ⟨h.keys hI.keys, by rw [hr]; exact hI.itemProducts, fun s k e he => ?_⟩
  have hstored : w.db.orderOf s k = some e := by
    rcases h.cache s k _ he with he | he
    · exact hI.cached s k e he
    · exact he
  rw [hr]
  exact hstored

theorem looks_setCache {siteID : ℕ} {keys : List ℤ} {s' : Store ℤ DBOrder}
    (h : Adds (w.db.orderOf siteID) keys (w.orderCache siteID) s') :
    w.Looks (w.setCache siteID s') := by
  refine ⟨⟨w.db.reports, rfl⟩, fun s k v hv => ?_⟩
  by_cases hs : s = siteID
  · subst hs
    simp only [setCache, Function.update_self] at hv
    exact (h k v hv).imp_right And.right
  · simp only [setCache, Function.update_of_ne hs] at hv
    exact .inl hv

theorem looks_orderGet (hk : w.db.OrderKeys) (ctx : CallContext) (keys : List ℤ) :
    w.Looks (w.orderGet ctx keys).1 :=
  looks_setCache (getMany_spec (Db.siteOrderCache_reads hk ctx.siteID) false keys).2

theorem looks_orderRequest (hk : w.db.OrderKeys) (ctx : CallContext) (r : OrderRequest) :
    w.Looks (w.orderRequest ctx r).1 := by
  match r with
  | .search f => exact looks_orderGet hk ctx _
  | .get k true => exact looks_orderGet hk ctx _
  | .get k false =>
    simp only [orderRequest, getOrder, Bool.false_eq_true, if_false, getAccessible]
    split_ifs
    · exact looks_orderGet hk ctx _
    · exact Looks.refl w

theorem createFromIwsOrder_inv (hI : w.Inv) (now : ℤ) (ctx : CallContext) (xml : OrderXml)
    (queryID : Option ℤ) (profileID : Option Text) :
    (w.createFromIwsOrder now ctx xml queryID profileID).1.Inv := by
  refine ⟨Db.createOrder_keys hI.keys, Db.createOrder_itemsHaveProducts hI.keys hI.itemProducts,
    fun s k e he => ?_⟩
  exact Db.orderOf_createOrder hI.keys hI.itemProducts (hI.cached s k e he)

/-- The lookup of the order a document was recorded as returns that order. -/
def Readable (w : OrderWorld) (ctx : CallContext) (id : ℤ) : Prop :=
  ∃ e c, w.db.orderOf ctx.siteID id = some e ∧ w.db.renderOrder e = .ok c ∧
    (w.orderGet ctx [id]).2 = .ok [c]

theorem orderGet_singleton (hk : w.db.OrderKeys) (ctx : CallContext) (k : ℤ) :
    (w.orderGet ctx [k]).2 = (answer (w.db.orderOf ctx.siteID) false
      (w.orderCache ctx.siteID) k).toList.mapM w.db.renderOrder := by
  have h := (getMany_spec (s := w.orderCache ctx.siteID)
    (Db.siteOrderCache_reads hk ctx.siteID) false [k]).1
  simp only [orderGet, h, distinct, Sql.distinctOn, List.filter_nil]
  rfl

theorem mapM_toList_ok {e : Option DBOrder} {f : DBOrder → Except Exn Order} {c : Order} :
    e.toList.mapM f = .ok [c] ↔ ∃ a, e = some a ∧ f a = .ok c := by
  rw [mapM_ok_iff]
  rcases e with _ | a
  · simp
  · simp

theorem orderGet_cases (hk : w.db.OrderKeys) (ctx : CallContext) (k : ℤ) :
    (∃ e, (w.orderGet ctx [k]).2 = .error e) ∨ (w.orderGet ctx [k]).2 = .ok [] ∨
      ∃ c, (w.orderGet ctx [k]).2 = .ok [c] := by
  rw [orderGet_singleton hk]
  rcases answer (w.db.orderOf ctx.siteID) false (w.orderCache ctx.siteID) k with _ | e
  · exact .inr (.inl rfl)
  · rcases hr : w.db.renderOrder e with x | c
    · exact .inl ⟨x, by simp [hr, bind, Except.bind]⟩
    · exact .inr (.inr ⟨c, by simp [hr, bind, Except.bind, pure, Except.pure]⟩)

/-- While the cache is sound, a lookup of one order returns what is stored unless a marker stands
under its id. -/
theorem Inv.orderGet_singleton (hI : w.Inv) (ctx : CallContext) (k : ℤ) :
    (w.orderGet ctx [k]).2 = (if w.orderCache ctx.siteID k = some .notInDB then none
      else w.db.orderOf ctx.siteID k).toList.mapM w.db.renderOrder := by
  rw [OrderWorld.orderGet_singleton hI.keys]
  congr 2
  unfold answer EntityCache.cached
  rcases hv : w.orderCache ctx.siteID k with _ | ⟨e⟩ | _
  · simp
  · simp [hI.cached ctx.siteID k e hv]
  · simp

theorem Inv.orderGet_ok_iff (hI : w.Inv) {ctx : CallContext} {k : ℤ} {c : Order} :
    (w.orderGet ctx [k]).2 = .ok [c] ↔ w.orderCache ctx.siteID k ≠ some .notInDB ∧
      ∃ e, w.db.orderOf ctx.siteID k = some e ∧ w.db.renderOrder e = .ok c := by
  rw [hI.orderGet_singleton, mapM_toList_ok]
  by_cases hm : w.orderCache ctx.siteID k = some .notInDB
  · simp [hm]
  · simp [hm]

end OrderWorld

namespace ReportWorld

variable {w : ReportWorld}

theorem looks_lookupOrder (hk : w.db.OrderKeys) (ctx : CallContext) (k : ℤ) :
    w.toOrderWorld.Looks (w.lookupOrder ctx k).1.toOrderWorld :=
  OrderWorld.looks_setCache (get_spec (Db.siteOrderCache_reads hk ctx.siteID) false k).2

theorem attempt_toOrderWorld (env : ReportEnv) (ctx : CallContext) (c : ReportCall)
    (isRetry : Bool) :
    (w.attempt env ctx c isRetry).1.toOrderWorld =
      (w.lookupOrder ctx c.orderID).1.toOrderWorld := by
  unfold attempt
  rcases w.lookupOrder ctx c.orderID with ⟨w1, dbOrder⟩
  rcases dbOrder with _ | dbOrder
  · rfl
  dsimp only
  split_ifs
  · rfl
  · rfl
  · split <;> rfl

section

variable (hk : w.db.OrderKeys)
include hk

theorem looks_fulfil (env : ReportEnv) (ctx : CallContext) (c : ReportCall)
    (id : ℤ) : w.toOrderWorld.Looks (w.fulfil env ctx c id).1.toOrderWorld := by
  have h := OrderWorld.looks_orderGet hk ctx [c.orderID]
  unfold fulfil
  dsimp only
  repeat' split
  · exact OrderWorld.Looks.refl _
  all_goals exact h

theorem looks_store (env : ReportEnv) (ctx : CallContext) (c : ReportCall)
    (q : DBQuery) (rt : ReportTypeRow) (p : Profile) :
    w.toOrderWorld.Looks (w.store env ctx c q rt p).1.toOrderWorld := by
  unfold store
  split
  · exact OrderWorld.Looks.refl _
  · split
    · exact OrderWorld.Looks.refl _
    · rename_i id db' hcreate
      obtain ⟨r, oi, rfl, -⟩ := Db.spReportCreate_ok hcreate
      have hadd : w.toOrderWorld.Looks { w.toOrderWorld with db := w.db.addReport r } :=
        ⟨⟨_, rfl⟩, fun _ _ _ h => .inl h⟩
      exact hadd.trans (looks_fulfil (w := { w with db := w.db.addReport r }) (hadd.keys hk)
        env ctx c id)

theorem looks_conclude (env : ReportEnv) (ctx : CallContext) (c : ReportCall)
    (isRetry : Bool) :
    w.toOrderWorld.Looks (conclude env ctx c (w.attempt env ctx c isRetry)).1.toOrderWorld := by
  have h : w.toOrderWorld.Looks (w.attempt env ctx c isRetry).1.toOrderWorld := by
    rw [attempt_toOrderWorld]
    exact looks_lookupOrder hk ctx c.orderID
  unfold conclude
  split
  · exact h
  · exact h
  · exact h.trans (looks_store (h.keys hk) env ctx c _ _ _)

theorem looks_reportCreate (env : ReportEnv) (ctx : CallContext)
    (c : ReportCall) : w.toOrderWorld.Looks (w.reportCreate env ctx c).1.toOrderWorld := by
  have h : w.toOrderWorld.Looks (w.attempt env ctx c false).1.toOrderWorld := by
    rw [attempt_toOrderWorld]
    exact looks_lookupOrder hk ctx c.orderID
  unfold reportCreate
  dsimp only
  split
  · split
    · exact h
    · exact h.trans (looks_conclude (h.keys hk) env ctx c true)
  · exact looks_conclude hk env ctx c false

end

inductive Request where
  | order (ctx : CallContext) (r : OrderRequest)
  | reportNew (ctx : CallContext) (env : ReportEnv) (c : ReportCall)
  | reportSearch (ctx : CallContext) (f : ReportFilters)
  | reportList (ctx : CallContext) (reportIDs : List ℤ)
  /-- `Order.Get` as checkout and the subscriptions call it, with ids the cart may name. -/
  | orderGet (ctx : CallContext) (keys : List ℤ)
  | orderCreate (now : ℤ) (ctx : CallContext) (xml : OrderXml) (queryID : Option ℤ)
    (profileID : Option Text)

def handle (w : ReportWorld) : Request → ReportWorld
  | .order ctx r => { w with toOrderWorld := (w.orderRequest ctx r).1 }
  | .reportNew ctx env c => (w.reportCreate env ctx c).1
  | .reportSearch ctx f => (w.reportSearch ctx f).1
  | .reportList ctx reportIDs => (w.reportList ctx reportIDs).1
  | .orderGet ctx keys => { w with toOrderWorld := (w.toOrderWorld.orderGet ctx keys).1 }
  | .orderCreate now ctx xml queryID profileID =>
    { w with toOrderWorld := (w.createFromIwsOrder now ctx xml queryID profileID).1 }

theorem handle_inv (hI : w.toOrderWorld.Inv) (r : Request) : (w.handle r).toOrderWorld.Inv := by
  cases r with
  | order ctx r => exact (OrderWorld.looks_orderRequest hI.keys ctx r).inv hI
  | reportNew ctx env c => exact (looks_reportCreate hI.keys env ctx c).inv hI
  | reportSearch ctx f => exact hI
  | reportList ctx reportIDs => exact hI
  | orderGet ctx keys => exact (OrderWorld.looks_orderGet hI.keys ctx keys).inv hI
  | orderCreate now ctx xml queryID profileID =>
    exact OrderWorld.createFromIwsOrder_inv hI now ctx xml queryID profileID

theorem run_handle_inv {w₀ : ReportWorld} (hI : w₀.toOrderWorld.Inv) (history : List Request) :
    (run handle w₀ history).toOrderWorld.Inv :=
  run_inv_of_step (I := fun w : ReportWorld => w.toOrderWorld.Inv)
    (fun _ r hI => handle_inv hI r) history hI

end ReportWorld

namespace OrderWorld

variable {w : OrderWorld} {now id : ℤ} {ctx : CallContext} {xml : OrderXml} {queryID : Option ℤ}
  {profileID : Option Text}

/-- The lookup of an order just created returns it exactly if the document had items, no marker
stands under the order's id, and the order can be rendered. -/
theorem readable_iff {w w' : OrderWorld} (hI : w.Inv)
    (h : w.createFromIwsOrder now ctx xml queryID profileID = (w', .ok id)) :
    w'.Readable ctx id ↔ xml.items ≠ [] ∧ w.orderCache ctx.siteID id ≠ some .notInDB ∧
      ∀ e, w'.db.orderOf ctx.siteID id = some e → w'.db.Renderable e := by
  have hI' : w'.Inv := by
    have := createFromIwsOrder_inv hI now ctx xml queryID profileID
    rwa [h] at this
  unfold createFromIwsOrder Db.createOrder at h
  rcases hsp : w.db.spOrderCreate now ctx.siteID xml queryID profileID with e | ⟨id', db'⟩
  · simp [hsp] at h
  simp only [hsp, Prod.mk.injEq, Except.ok.injEq] at h
  obtain ⟨rfl, rfl⟩ := h
  rw [← Db.orderOf_created hI.keys hsp]
  unfold Readable
  simp only [hI'.orderGet_ok_iff]
  refine ⟨fun ⟨e, c, he, hc, hmark, _⟩ => ⟨⟨e, he⟩, hmark, fun e' he' => ?_⟩,
    fun ⟨⟨e, he⟩, hmark, hr⟩ => ?_⟩
  · rw [he, Option.some.injEq] at he'
    exact he' ▸ Db.renderOrder_ok_iff.1 ⟨c, hc⟩
  · obtain ⟨c, hc⟩ := Db.renderOrder_ok_iff.2 (hr e he)
    exact ⟨e, c, he, hc, hmark, e, he, hc⟩

/-- After any history of requests, the lookup of an order just created returns it exactly if the
document had items, no request has left a marker under the order's id, and the order can be
rendered. -/
theorem created_readable_iff {w₀ : ReportWorld} (hI : w₀.toOrderWorld.Inv)
    (history : List ReportWorld.Request) {w w' : OrderWorld}
    (hw : w = (run ReportWorld.handle w₀ history).toOrderWorld)
    (h : w.createFromIwsOrder now ctx xml queryID profileID = (w', .ok id)) :
    w'.Readable ctx id ↔ xml.items ≠ [] ∧ w.orderCache ctx.siteID id ≠ some .notInDB ∧
      ∀ e, w'.db.orderOf ctx.siteID id = some e → w'.db.Renderable e := by
  have hw' : w.Inv := hw ▸ ReportWorld.run_handle_inv hI history
  exact readable_iff hw' h

end OrderWorld

def noOrders : ReportWorld where
  db := oneProductDb 0
  orderCache := fun _ _ => none
  reportCache := fun _ _ => none
  queryCache := fun _ => none
  reportTypeCache := fun _ _ => none

theorem noOrders_inv : noOrders.toOrderWorld.Inv :=
  ⟨by decide, by decide, fun _ _ _ h => by cases h⟩

def askEarly (orderID : ℤ) : ReportWorld.Request :=
  .reportNew { siteID := 1, authorizedUserID := 7 } { getProfile := fun _ _ _ _ => .ok none }
    { typeCode := none, orderID := orderID, queryID := 0, profileID := [] }

/-- Somebody has asked for another order before. -/
theorem noOrders_readable :
    ((run ReportWorld.handle noOrders [askEarly 2]).createFromIwsOrder 0
      { siteID := 1, authorizedUserID := 8 } oneItemXml none
      none).1.Readable { siteID := 1, authorizedUserID := 8 } 1 := by
  refine (OrderWorld.created_readable_iff noOrders_inv [askEarly 2] rfl (Prod.ext rfl rfl)).2
    ⟨by decide, by decide, fun e he => ?_⟩
  obtain rfl := Option.some.inj he
  intro i hi
  cases hi

/-- Order 1 is created after somebody has asked for it: the lookup finds nothing. -/
theorem order_marked_missing :
    let w := (run ReportWorld.handle noOrders [askEarly 1]).toOrderWorld
    let w' := (w.createFromIwsOrder 0 { siteID := 1, authorizedUserID := 8 } oneItemXml none none).1
    noOrders.toOrderWorld.Inv ∧
    (w.createFromIwsOrder 0 { siteID := 1, authorizedUserID := 8 } oneItemXml none none).2 = .ok 1 ∧
    w'.db.orders.map (·.id) = [1] ∧
    (w'.orderGet { siteID := 1, authorizedUserID := 8 } [1]).2 = .ok [] ∧
    ¬ w'.Readable { siteID := 1, authorizedUserID := 8 } 1 := by
  intro w w'
  have hget : (w'.orderGet { siteID := 1, authorizedUserID := 8 } [1]).2 = .ok [] := by decide
  refine ⟨noOrders_inv, by decide, by decide, hget, fun ⟨e, c, _, _, h⟩ => ?_⟩
  rw [hget] at h
  cases h

end AciX
