import AciX.Order.Get

/-!
# Who may read an order

`Order.Get` checks nothing; `spOrderSearch` and `spOrderValidateAccess` compute the ids it is given.
The search by external id has lost its comparison with the caller, so an order looked up that way is
returned to anybody on its site (`order_confidential_iff`).
-/

namespace AciX

open List Sql

structure OrderFilters where
  firstName : Option Text := none
  lastName : Option Text := none
  state : Option Text := none
  profileID : Option Text := none
  selectedUserID : Option ℤ := none

/-- `ISNULL(col,'')=ISNULL(@p,ISNULL(col,''))` for a parameter of type `VARCHAR(n)`, which is also
the type of the right side. -/
def textFilter (n : ℕ) (col p : Option Text) : Bool :=
  textEq (col.getD []) (varchar n (p.getD (col.getD [])))

theorem textFilter_none {n : ℕ} {col : Option Text} (h : (col.getD []).length ≤ n) :
    textFilter n col none = true := by
  simp [textFilter, varchar, take_of_length_le h]

namespace Db

variable (db : Db)

def isBackofficeReader (siteID : ℕ) (userID : ℤ) : Bool :=
  db.users.any fun u => u.siteID = siteID && u.id = userID && u.isBackofficeReader

def orderMatches (f : OrderFilters) (o : OrderRow) : List OrderRow :=
  (leftJoin (fun o oi => oi.siteID = o.siteID && oi.orderID = o.id) [o] db.orderItems).flatMap
    fun (o, oi) =>
      ((db.queryNames (oi.bind (·.queryID))).filter fun (sr, fn, ln) =>
        textFilter 11 (oi.bind (·.profileID)) f.profileID &&
        textFilter 30 (fn.bind (·.name)) f.firstName &&
        textFilter 1 (sr.bind (·.middleInitial)) none &&
        textFilter 30 (ln.bind (·.name)) f.lastName &&
        textFilter 2 (oi.bind (·.state)) f.state).map fun _ => o

def spOrderSearch (siteID : ℕ) (authorizedUserID : ℤ) (f : OrderFilters)
    (externalOrderIDs : List ℤ) : List ℤ :=
  let authorized : Option ℤ :=
    if (externalOrderIDs ≠ [] || f.selectedUserID.isSome) &&
        db.isBackofficeReader siteID authorizedUserID then none
    else some authorizedUserID
  if externalOrderIDs ≠ [] then
    (join (fun o id => eqNull (some id) o.externalID)
      (db.orders.filter (·.siteID = siteID)) externalOrderIDs).map (·.1.id)
  else
    ((db.orders.filter fun o => o.siteID = siteID &&
      eqNull o.userID (authorized.or (f.selectedUserID.or o.userID))).flatMap
        (db.orderMatches f)).map (·.id)

def spOrderValidateAccess (authorizedUserID : ℤ) (siteID : ℕ) (keys : List ℤ) : List ℤ :=
  let authorized : Option ℤ :=
    if db.isBackofficeReader siteID authorizedUserID then none else some authorizedUserID
  (join (fun o k => k = o.id) (db.orders.filter fun o => o.siteID = siteID &&
    eqNull o.userID (authorized.or o.userID)) keys).map (·.1.id)

def OwnedBy (ctx : CallContext) (c : Order) : Prop :=
  ∃ o ∈ db.orders, o.siteID = ctx.siteID ∧ o.userID = some ctx.authorizedUserID
    ∧ db.renderOrder (readOrder (db.itemsOf o.siteID o.id) o) = .ok c

variable {db} {f : OrderFilters} {siteID : ℕ}

theorem mem_orderMatches {o o' : OrderRow} (h : o' ∈ db.orderMatches f o) : o' = o := by
  simp only [orderMatches, mem_flatMap, mem_map] at h
  obtain ⟨⟨a, oi⟩, ha, q, -, rfl⟩ := h
  simpa using mem_leftJoin ha

theorem mem_spOrderSearch {userID : ℤ} {k : ℤ} (hb : db.isBackofficeReader siteID userID = false)
    (h : k ∈ db.spOrderSearch siteID userID f []) :
    ∃ o ∈ db.orders, o.siteID = siteID ∧ o.id = k ∧ o.userID = some userID := by
  simp only [spOrderSearch, hb, ne_eq, not_true_eq_false, Bool.and_false, if_false,
    Bool.false_eq_true, mem_map, mem_flatMap, mem_filter, Bool.and_eq_true,
    decide_eq_true_eq, Option.some_or] at h
  obtain ⟨o', ⟨o, ⟨ho, hs, hu⟩, ho'⟩, rfl⟩ := h
  obtain rfl := mem_orderMatches ho'
  obtain ⟨x, hx, hx'⟩ := eqNull_iff.1 hu
  exact ⟨o', ho, hs, rfl, by rw [hx, hx']⟩

theorem mem_spOrderSearch_external {userID x : ℤ} {k : ℤ} : k ∈ db.spOrderSearch siteID userID f [x]
      ↔ ∃ o ∈ db.orders, o.siteID = siteID ∧ o.id = k ∧ o.externalID = some x := by
  simp only [spOrderSearch, ne_eq, reduceCtorEq, not_false_eq_true, if_true, mem_map,
    Prod.exists, mem_join, mem_filter, mem_singleton, decide_eq_true_eq,
    eqNull_iff, Option.some.injEq]
  refine ⟨?_, ?_⟩
  · rintro ⟨o, y, ⟨⟨ho, hs⟩, hy, z, hz, hx⟩, hk⟩
    exact ⟨o, ho, hs, hk, by rw [hx, ← hz, hy]⟩
  · rintro ⟨o, ho, hs, hk, hx⟩
    exact ⟨o, x, ⟨⟨ho, hs⟩, rfl, x, rfl, hx⟩, hk⟩

theorem mem_spOrderValidateAccess {userID : ℤ} {keys : List ℤ} {k : ℤ}
    (hb : db.isBackofficeReader siteID userID = false)
    (h : k ∈ db.spOrderValidateAccess userID siteID keys) :
    ∃ o ∈ db.orders, o.siteID = siteID ∧ o.id = k ∧ o.userID = some userID := by
  simp only [spOrderValidateAccess, hb, Bool.false_eq_true, if_false, mem_map, Prod.exists,
    mem_join, mem_filter, Bool.and_eq_true, decide_eq_true_eq, Option.some_or] at h
  obtain ⟨o, _, ⟨⟨ho, hs, hu⟩, -, rfl⟩, hk⟩ := h
  obtain ⟨x, hx, hx'⟩ := eqNull_iff.1 hu
  exact ⟨o, ho, hs, hk, by rw [hx, hx']⟩

end Db

inductive OrderRequest where
  | search (f : OrderFilters)
  | get (orderID : ℤ) (isExternalID : Bool)

namespace OrderWorld

variable (w : OrderWorld) (ctx : CallContext)

def orderSearch (f : OrderFilters) (externalOrderIDs : List ℤ) :
    OrderWorld × Except Exn (List Order) :=
  w.orderGet ctx (w.db.spOrderSearch ctx.siteID ctx.authorizedUserID f externalOrderIDs)

def getByExternalID (externalID : ℤ) : OrderWorld × Except Exn (Option Order) :=
  let r := w.orderSearch ctx {} [externalID]
  (r.1, r.2.map List.head?)

def validateOrderAccess (orderIDs : List ℤ) : List ℤ :=
  w.db.spOrderValidateAccess ctx.authorizedUserID ctx.siteID orderIDs

def getAccessible (orderID : ℤ) : OrderWorld × Except Exn (Option Order) :=
  let ids := w.validateOrderAccess ctx [orderID]
  if ids.length > 0 then
    let r := w.orderGet ctx ids
    (r.1, r.2.map List.head?)
  else (w, .ok none)

def getOrder (orderID : ℤ) (isExternalID : Bool) : OrderWorld × Except Exn Order :=
  let r := if isExternalID then w.getByExternalID ctx orderID else w.getAccessible ctx orderID
  (r.1, r.2.bind fun
    | some order => .ok order
    | none => .error .orderNotFound)

/-- What `OrderController` answers: the orders it returns, or the exception it ends with. -/
def orderRequest : OrderRequest → OrderWorld × Except Exn (List Order)
  | .search f => w.orderSearch ctx f []
  | .get orderID isExternalID =>
    let r := w.getOrder ctx orderID isExternalID
    (r.1, r.2.map ([·]))

/-- Every order that is returned is the caller's. -/
def Confidential (r : OrderRequest) : Prop :=
  ∀ cs, (w.orderRequest ctx r).2 = .ok cs → ∀ c ∈ cs, w.db.OwnedBy ctx c

variable {w ctx}

theorem orderRequest_get_ok {k : ℤ} {isExternalID : Bool} {cs : List Order} :
    (w.orderRequest ctx (.get k isExternalID)).2 = .ok cs ↔ ∃ c, cs = [c] ∧
      (if isExternalID then w.getByExternalID ctx k else w.getAccessible ctx k).2
        = .ok (some c) := by
  simp only [orderRequest, getOrder]
  rcases (if isExternalID then w.getByExternalID ctx k else w.getAccessible ctx k).2 with
    e | _ | c
  · simp [Except.map, Except.bind]
  · simp [Except.map, Except.bind]
  · simp only [Except.map, Except.bind, Except.ok.injEq, Option.some.injEq]
    exact ⟨fun h => ⟨c, h.symm, rfl⟩, fun ⟨c', h, hc⟩ => by rw [h, hc]⟩

theorem map_head?_ok {x : Except Exn (List Order)} {c : Order}
    (h : x.map List.head? = .ok (some c)) : ∃ cs, x = .ok cs ∧ c ∈ cs := by
  rcases x with e | cs
  · cases h
  · simp only [Except.map, Except.ok.injEq] at h
    exact ⟨cs, rfl, mem_of_mem_head? h⟩

section

variable (hk : w.db.OrderKeys) (hc : w.OrdersCached ctx.siteID)
include hk hc

theorem orderGet_owned {keys : List ℤ} (hkeys : ∀ k ∈ keys, ∃ o ∈ w.db.orders,
      o.siteID = ctx.siteID ∧ o.id = k ∧ o.userID = some ctx.authorizedUserID)
    {cs : List Order} (h : (w.orderGet ctx keys).2 = .ok cs) {c : Order} (hcs : c ∈ cs) :
    w.db.OwnedBy ctx c := by
  obtain ⟨o, ho, hs, hkey, hr⟩ := orderGet_mem hk hc h hcs
  obtain ⟨o', ho', hs', hid, hu⟩ := hkeys o.id hkey
  obtain rfl : o' = o := hk.orders.eq ho' ho (by rw [hs, hs', hid])
  exact ⟨o', ho', hs, hu, hr⟩

theorem getByExternalID_eq {x : ℤ} {o : OrderRow} (ho : o ∈ w.db.orders)
    (hs : o.siteID = ctx.siteID) (hx : o.externalID = some x) :
    (w.getByExternalID ctx x).2
      = (w.db.renderOrder (Db.readOrder (w.db.itemsOf o.siteID o.id) o)).map some := by
  have hids : ∀ k, k ∈ w.db.spOrderSearch ctx.siteID ctx.authorizedUserID {} [x] ↔ k = o.id := by
    intro k
    rw [Db.mem_spOrderSearch_external]
    refine ⟨fun ⟨o', ho', hs', hid, hx'⟩ => ?_, fun h => ⟨o, ho, hs, h.symm, hx⟩⟩
    rw [← hid, hk.ordersExternal.eq ho' ho (by rw [hs, hs', hx, hx'])]
  have hd : distinct (w.db.spOrderSearch ctx.siteID ctx.authorizedUserID {} [x]) = [o.id] := by
    refine perm_singleton.1 ((perm_ext_iff_of_nodup (nodup_distinct _) (by simp)).2 ?_)
    intro k
    rw [mem_distinct, hids, mem_singleton]
  have ho' : w.db.orderOf ctx.siteID o.id = some (Db.readOrder (w.db.itemsOf o.siteID o.id) o) :=
    hs ▸ Db.orderOf_eq hk ho
  simp only [getByExternalID, orderSearch, orderGet_eq hk hc, hd]
  rw [filterMap_cons_some ho', filterMap_nil, mapM_cons, mapM_nil]
  rcases w.db.renderOrder (Db.readOrder (w.db.itemsOf o.siteID o.id) o) with e | c <;> rfl

section

variable (hb : w.db.isBackofficeReader ctx.siteID ctx.authorizedUserID = false)
include hb

theorem search_confidential (f : OrderFilters) :
    w.Confidential ctx (.search f) := fun _ h _ hcs =>
  orderGet_owned hk hc (fun _ hkey => Db.mem_spOrderSearch hb hkey) h hcs

theorem get_confidential (k : ℤ) :
    w.Confidential ctx (.get k false) := by
  intro cs h c hcs
  obtain ⟨c', rfl, hget⟩ := orderRequest_get_ok.1 h
  obtain rfl := mem_singleton.1 hcs
  simp only [Bool.false_eq_true, if_false, getAccessible] at hget
  split_ifs at hget
  · obtain ⟨cs, hok, hmem⟩ := map_head?_ok hget
    exact orderGet_owned hk hc (fun _ hkey => Db.mem_spOrderValidateAccess hb hkey) hok hmem
  · cases hget

end

theorem external_confidential_iff (x : ℤ) :
    w.Confidential ctx (.get x true) ↔ ¬ ∃ o ∈ w.db.orders, o.siteID = ctx.siteID
      ∧ o.externalID = some x ∧ o.userID ≠ some ctx.authorizedUserID
      ∧ w.db.Renderable (Db.readOrder (w.db.itemsOf o.siteID o.id) o) := by
  refine ⟨fun h ⟨o, ho, hs, hx, hu, hr⟩ => ?_, fun h cs hcs c hc' => ?_⟩
  · obtain ⟨c, hc'⟩ := Db.renderOrder_ok_iff.2 hr
    have hget : (w.getByExternalID ctx x).2 = .ok (some c) := by
      rw [getByExternalID_eq hk hc ho hs hx, hc']
      rfl
    obtain ⟨o', ho', hs', hu', hr'⟩ :=
      h [c] (orderRequest_get_ok.2 ⟨c, rfl, hget⟩) c (mem_singleton_self c)
    have hid : o'.id = o.id :=
      (Db.renderOrder_header hr').1.symm.trans (Db.renderOrder_header hc').1
    obtain rfl : o' = o := hk.orders.eq ho' ho (by rw [hs, hs', hid])
    exact hu hu'
  · obtain ⟨c', rfl, hget⟩ := orderRequest_get_ok.1 hcs
    obtain rfl := mem_singleton.1 hc'
    obtain ⟨cs, hok, hmem⟩ := map_head?_ok hget
    obtain ⟨o, ho, hs, hkey, hr⟩ := orderGet_mem hk hc hok hmem
    obtain ⟨o', ho', hs', hid, hx⟩ := Db.mem_spOrderSearch_external.1 hkey
    obtain rfl : o' = o := hk.orders.eq ho' ho (by rw [hs, hs', hid])
    by_contra hn
    refine h ⟨o', ho', hs', hx, fun hu => hn ⟨o', ho', hs', hu, hr⟩, ?_⟩
    exact Db.renderOrder_ok_iff.1 ⟨c, hr⟩

/-- To a caller who is no reader of the back office, every request but one returns only orders
of their own: an external id that names somebody else's order returns that order. -/
theorem order_confidential_iff
    (hb : w.db.isBackofficeReader ctx.siteID ctx.authorizedUserID = false) (r : OrderRequest) :
    w.Confidential ctx r ↔ ¬ ∃ x, r = .get x true ∧ ∃ o ∈ w.db.orders, o.siteID = ctx.siteID
      ∧ o.externalID = some x ∧ o.userID ≠ some ctx.authorizedUserID
      ∧ w.db.Renderable (Db.readOrder (w.db.itemsOf o.siteID o.id) o) := by
  match r with
  | .search f => simp [search_confidential hk hc hb f]
  | .get k false => simp [get_confidential hk hc hb k]
  | .get k true =>
    rw [external_confidential_iff hk hc]
    simp

end

end OrderWorld

def oneOrder : OrderWorld where
  db := { orders := [{ siteID := 1, id := 65537, externalID := some 500, userID := some 8 }] }
  orderCache := fun _ _ => none

theorem oneOrder_keys : oneOrder.db.OrderKeys := by decide

theorem oneOrder_cached (siteID : ℕ) : oneOrder.OrdersCached siteID := by
  intro k v h
  cases h

theorem oneOrder_confidential_owner :
    oneOrder.Confidential { siteID := 1, authorizedUserID := 8 } (.get 500 true) :=
  (OrderWorld.order_confidential_iff oneOrder_keys (oneOrder_cached 1) rfl _).2 (by
    rintro ⟨x, -, o, ho, -, -, hu, -⟩
    simp only [oneOrder, mem_singleton] at ho
    subst ho
    exact hu rfl)

theorem oneOrder_leaks :
    oneOrder.db.OrderKeys ∧ oneOrder.OrdersCached 1 ∧ oneOrder.db.isBackofficeReader 1 7 = false ∧
    (oneOrder.orderRequest { siteID := 1, authorizedUserID := 7 } (.get 500 true)).2
      = .ok [{ orderID := 65537, orderExternalID := 500, orderDate := none, orderTotal := 0,
               visitID := 0, userID := 8, items := [] }] ∧
    ¬ oneOrder.Confidential { siteID := 1, authorizedUserID := 7 } (.get 500 true) := by
  refine ⟨oneOrder_keys, oneOrder_cached 1, rfl, rfl, fun h => ?_⟩
  obtain ⟨o, ho, -, hu, -⟩ := h _ rfl _ (mem_singleton_self _)
  simp only [oneOrder, mem_singleton] at ho
  subst ho
  exact absurd hu (by decide)

end AciX
