import AciX.Order.Create
import AciX.Order.External

/-!
# Importing credits

`User.GetCredits` looks up the order of each credit, afresh, and asks for those the site does not
have. The lookup of a missing order leaves a marker in the cache, and the order is created behind
it. So the credit of an order imported by the call is dropped unless another credit of the same
order follows, whose forced lookup replaces the marker (`getCredits_iff`).
-/

namespace AciX

open EntityCache List

structure IwsCredit where
  packageID : ℤ
  txnID : ℤ
  units : ℤ := 0
  unitsLeft : ℤ := 0
  unitsUsed : ℤ := 0

structure Incoming where
  credit : IwsCredit
  order : Option OrderXml := none
  now : ℤ := 0

structure DBProduct where
  productID : ℤ
  productName : Option Text := none
  reportTypeCode : Option Text := none

structure Credit where
  categoryID : ℤ
  orderID : ℤ
  orderExternalID : ℤ
  quantity : ℤ
  quantityLeft : ℤ
  quantityUsed : ℤ
  productName : Option Text
  reportTypeCode : Option Text

namespace Credits

section Model

variable (siteID : ℕ) (spProductGet : Db → ℤ → Option DBProduct)

abbrev State := Db × Store ℤ DBOrder

def importOrder (st : State) (i : Incoming) : Except Exn State :=
  let r := (st.1.siteOrderCacheByExternalID siteID).get true i.credit.txnID st.2
  match r.2, i.order with
  | some _, _ => .ok (st.1, r.1)
  | none, none => .ok (st.1, r.1)
  | none, some xml =>
    match st.1.spOrderCreate i.now siteID xml none none with
    | .error e => .error e
    | .ok (_, db) => .ok (db,
      ((db.siteOrderCacheByExternalID siteID).get false i.credit.txnID r.1).1)

def importOrders : State → List Incoming → Except Exn State
  | st, [] => .ok st
  | st, i :: is => do
    let st ← importOrder siteID st i
    importOrders st is

def renderCredit (c : IwsCredit) (product : DBProduct) (orderID orderExternalID : ℤ) : Credit :=
  { categoryID := product.productID
    orderID := orderID
    orderExternalID := orderExternalID
    quantity := c.units
    quantityLeft := c.unitsLeft
    quantityUsed := c.unitsUsed
    productName := product.productName
    reportTypeCode := product.reportTypeCode }

def renderEach (db : Db) : Store ℤ DBOrder → List IwsCredit → Store ℤ DBOrder × List (Option Credit)
  | s, [] => (s, [])
  | s, c :: cs =>
    let r := (db.siteOrderCacheByExternalID siteID).get false c.txnID s
    let rs := renderEach db r.1 cs
    (rs.1, (match spProductGet db c.packageID, r.2 with
      | some product, some order =>
        some (renderCredit c product order.orderID order.orderExternalID)
      | _, _ => none) :: rs.2)

def render (st : State) (credits : List IwsCredit) : Store ℤ DBOrder × List Credit :=
  let r := (st.1.siteOrderCacheByExternalID siteID).getMany false (credits.map (·.txnID)) st.2
  let rs := renderEach siteID spProductGet st.1 r.1 credits
  (rs.1, rs.2.filterMap id)

def getCredits (st : State) (is : List Incoming) : Except Exn (State × List Credit) := do
  let st ← importOrders siteID st is
  let r := render siteID spProductGet st (is.map (·.credit))
  .ok ((st.1, r.1), r.2)

def orderRow (db : Db) (txnID : ℤ) : Option OrderRow :=
  db.orders.find? fun o => o.siteID = siteID && o.externalID = some txnID

def usable (db : Db) (is : List Incoming) : List Credit :=
  is.filterMap fun i =>
    match spProductGet db i.credit.packageID, orderRow siteID db i.credit.txnID with
    | some product, some o => some (renderCredit i.credit product o.id i.credit.txnID)
    | _, _ => none

/-- An order of the transaction is answered for one of the credits, and there is another credit of
the transaction after it. -/
def Repeated (txnID : ℤ) (is : List Incoming) : Prop :=
  ∃ is₁ i is₂, is = is₁ ++ i :: is₂ ∧ i.credit.txnID = txnID ∧ i.order.isSome = true ∧
    ∃ j ∈ is₂, j.credit.txnID = txnID

end Model

variable {siteID : ℕ} {spProductGet : Db → ℤ → Option DBProduct} {db : Db} {t : ℤ}

theorem orderRow_some {o : OrderRow} (h : orderRow siteID db t = some o) :
    o ∈ db.orders ∧ o.siteID = siteID ∧ o.externalID = some t := by
  have hp := find?_some h
  simp only [Bool.and_eq_true, decide_eq_true_eq] at hp
  exact ⟨mem_of_find?_eq_some h, hp.1, hp.2⟩

theorem orderOfExternalID_of_row (hk : db.OrderKeys) {o : OrderRow}
    (h : orderRow siteID db t = some o) : ∃ e, db.orderOfExternalID siteID t = some e ∧
      e.orderID = o.id ∧ e.orderExternalID = t := by
  obtain ⟨ho, rfl, hx⟩ := orderRow_some h
  refine ⟨_, (Db.orderOfExternalID_eq hk ho hx).trans (Db.orderOf_eq hk ho), rfl, ?_⟩
  simp [Db.readOrder, hx]

theorem orderOfExternalID_of_none (h : orderRow siteID db t = none) :
    db.orderOfExternalID siteID t = none := by
  unfold orderRow at h
  simp only [Db.orderOfExternalID, h, Option.bind_none]

theorem orderRow_created {db' : Db} {now id : ℤ} {xml : OrderXml} (hk : db.OrderKeys)
    (hne : xml.items ≠ []) (h : db.spOrderCreate now siteID xml none none = .ok (id, db')) :
    (∀ t o, orderRow siteID db t = some o → orderRow siteID db' t = some o) ∧
      ∀ t, (orderRow siteID db' t).isSome = true ↔
        (orderRow siteID db t).isSome = true ∨ t = xml.orderID := by
  have horders := (Db.spOrderCreate_orders h).2
  rw [Db.newOrders_eq hk hne] at horders
  constructor
  · intro t o ho
    simp only [orderRow, horders, find?_append] at ho ⊢
    rw [ho]
    rfl
  · intro t
    simp only [orderRow, horders, find?_append, Option.isSome_or, Bool.or_eq_true]
    refine or_congr Iff.rfl ?_
    simp only [find?_isSome, mem_singleton, exists_eq_left, Bool.and_eq_true,
      decide_eq_true_eq, Db.orderRow, true_and, Option.some.injEq]
    exact eq_comm

section Import

variable {st st' : State} {i : Incoming} {is : List Incoming}

/-- The order fetched for a credit is that of its transaction and has an item. -/
def OwnOrder (i : Incoming) : Prop :=
  ∀ xml ∈ i.order, xml.orderID = i.credit.txnID ∧ xml.items ≠ []

/-- One round reads the entry of its transaction from the tables as they are before it, and may then
record the order. -/
theorem importOrder_spec (hk : st.1.OrderKeys) (hi : OwnOrder i)
    (h : importOrder siteID st i = .ok st') :
    st'.2 = refreshed (st.1.orderOfExternalID siteID) true [i.credit.txnID] st.2 ∧
    st'.1.OrderKeys ∧
    (∀ t o, orderRow siteID st.1 t = some o → orderRow siteID st'.1 t = some o) ∧
    ∀ t, (orderRow siteID st'.1 t).isSome = true ↔
      (orderRow siteID st.1 t).isSome = true ∨ t = i.credit.txnID ∧ i.order.isSome = true := by
  have hget := get_eq (Db.siteOrderCacheByExternalID_reads hk siteID) true i.credit.txnID st.2
  have hself : refreshed (st.1.orderOfExternalID siteID) true [i.credit.txnID] st.2
      i.credit.txnID = some (entryOf (st.1.orderOfExternalID siteID i.credit.txnID)) := by
    simp [refreshed]
  simp only [importOrder, hget, answer, true_or, if_true] at h
  rcases hrow : orderRow siteID st.1 i.credit.txnID with _ | o
  · rw [orderOfExternalID_of_none hrow] at h hself
    rcases ho : i.order with _ | xml
    · simp only [ho, Except.ok.injEq] at h
      subst h
      exact ⟨rfl, hk, fun _ _ h => h, by simp⟩
    · obtain ⟨hxml, hne⟩ := hi xml (by simp [ho])
      simp only [ho] at h
      split at h
      · cases h
      · rename_i id db' hcreate
        simp only [Except.ok.injEq] at h
        subst h
        obtain ⟨hkeep, hknown⟩ := orderRow_created hk hne hcreate
        refine ⟨?_, Db.spOrderCreate_keys hk hcreate, hkeep, fun t => ?_⟩
        · exact congrArg Prod.fst (get_of_entry hself)
        · rw [hknown, hxml]
          simp
  · obtain ⟨e, he, -⟩ := orderOfExternalID_of_row hk hrow
    rw [he] at h
    simp only [Except.ok.injEq] at h
    subst h
    refine ⟨rfl, hk, fun _ _ h => h, fun t => ⟨.inl, ?_⟩⟩
    rintro (h | ⟨rfl, -⟩)
    · exact h
    · simp [hrow]

def EntryOk (siteID : ℕ) (db : Db) (t : ℤ) (v : Entry DBOrder) : Prop :=
  ∀ e, v = .entity e → e.orderExternalID = t ∧ ∃ o, orderRow siteID db t = some o ∧ e.orderID = o.id

/-- After the credits `is` the tables have their orders, and the cache has those that were there
before or were looked up again. -/
structure Imported (siteID : ℕ) (db₀ : Db) (is : List Incoming) (st : State) : Prop where
  keys : st.1.OrderKeys
  known : ∀ t, (orderRow siteID st.1 t).isSome = true ↔ (orderRow siteID db₀ t).isSome = true ∨
    ∃ i ∈ is, i.credit.txnID = t ∧ i.order.isSome = true
  entry : ∀ i ∈ is, ∃ v, st.2 i.credit.txnID = some v ∧ EntryOk siteID st.1 i.credit.txnID v
  cached : ∀ i ∈ is, (∃ e, st.2 i.credit.txnID = some (.entity e)) ↔
    (orderRow siteID db₀ i.credit.txnID).isSome = true ∨ Repeated i.credit.txnID is

theorem repeated_snoc : Repeated t (is ++ [i]) ↔ Repeated t is ∨
    i.credit.txnID = t ∧ ∃ j ∈ is, j.credit.txnID = t ∧ j.order.isSome = true := by
  constructor
  · rintro ⟨is₁, j, is₂, heq, hj, ho, k, hk, hkt⟩
    rcases eq_nil_or_concat is₂ with rfl | ⟨is₃, l, rfl⟩
    · cases hk
    · rw [concat_eq_append] at heq hk
      have heq' : is ++ [i] = (is₁ ++ j :: is₃) ++ [l] := by simpa using heq
      obtain ⟨rfl, hl⟩ := append_inj' heq' rfl
      obtain rfl : i = l := by simpa using hl
      rcases mem_append.1 hk with hk | hk
      · exact .inl ⟨is₁, j, is₃, rfl, hj, ho, k, hk, hkt⟩
      · rw [mem_singleton.1 hk] at hkt
        exact .inr ⟨hkt, j, by simp, hj, ho⟩
  · rintro (⟨is₁, j, is₂, rfl, hj, ho, k, hk, hkt⟩ | ⟨hi, j, hj, hjt, ho⟩)
    · exact ⟨is₁, j, is₂ ++ [i], by simp, hj, ho, k, by simp [hk], hkt⟩
    · obtain ⟨is₁, is₂, rfl⟩ := append_of_mem hj
      exact ⟨is₁, j, is₂ ++ [i], by simp, hjt, ho, i, by simp, hi⟩

theorem Repeated.exists_order (h : Repeated t is) :
    ∃ i ∈ is, i.credit.txnID = t ∧ i.order.isSome = true := by
  obtain ⟨is₁, i, is₂, rfl, hi, ho, -⟩ := h
  exact ⟨i, by simp, hi, ho⟩

theorem importOrder_imported {db₀ : Db} (hI : Imported siteID db₀ is st) (hi : OwnOrder i)
    (h : importOrder siteID st i = .ok st') : Imported siteID db₀ (is ++ [i]) st' := by
  obtain ⟨hcache, hkeys, hkeep, hknown⟩ := importOrder_spec hI.keys hi h
  have hself : st'.2 i.credit.txnID =
      some (entryOf (st.1.orderOfExternalID siteID i.credit.txnID)) := by
    simp [hcache, refreshed]
  have hother : ∀ t, t ≠ i.credit.txnID → st'.2 t = st.2 t := by
    intro t ht
    simp [hcache, refreshed, ht]
  have hentry : ∀ t v, EntryOk siteID st.1 t v → EntryOk siteID st'.1 t v := by
    intro t v hv e he
    obtain ⟨hx, o, ho, hid⟩ := hv e he
    exact ⟨hx, o, hkeep t o ho, hid⟩
  refine ⟨hkeys, fun t => ?_, fun j hj => ?_, fun j hj => ?_⟩
  · rw [hknown, hI.known, or_assoc]
    simp only [mem_append, mem_singleton, or_and_right, exists_or, exists_eq_left]
    exact or_congr Iff.rfl (or_congr Iff.rfl (and_congr_left fun _ => eq_comm))
  · by_cases ht : j.credit.txnID = i.credit.txnID
    · rw [ht]
      refine ⟨_, hself, fun e he => ?_⟩
      rcases hrow : orderRow siteID st.1 i.credit.txnID with _ | o
      · rw [orderOfExternalID_of_none hrow] at he
        cases he
      · obtain ⟨e', hf, hid, hx⟩ := orderOfExternalID_of_row hI.keys hrow
        rw [hf] at he
        cases he
        exact ⟨hx, o, hkeep _ o hrow, hid⟩
    · have hj' : j ∈ is := by
        refine (mem_append.1 hj).resolve_right fun hj' => ht ?_
        rw [mem_singleton.1 hj']
      obtain ⟨v, hv, hok⟩ := hI.entry j hj'
      exact ⟨v, (hother _ ht).trans hv, hentry _ _ hok⟩
  · by_cases ht : j.credit.txnID = i.credit.txnID
    · rw [ht, hself, repeated_snoc]
      have hentity : (∃ e, some (entryOf (st.1.orderOfExternalID siteID i.credit.txnID)) =
          some (.entity e)) ↔ (orderRow siteID st.1 i.credit.txnID).isSome = true := by
        rcases hrow : orderRow siteID st.1 i.credit.txnID with _ | o
        · simp [orderOfExternalID_of_none hrow, entryOf]
        · obtain ⟨e, hf, -⟩ := orderOfExternalID_of_row hI.keys hrow
          simp [hf, entryOf]
      rw [hentity, hI.known]
      refine or_congr Iff.rfl ⟨fun h => .inr ⟨rfl, h⟩, ?_⟩
      rintro (h | h)
      · exact h.exists_order
      · exact h.2
    · have hj' : j ∈ is := by
        refine (mem_append.1 hj).resolve_right fun hj' => ht ?_
        rw [mem_singleton.1 hj']
      rw [hother _ ht, hI.cached j hj', repeated_snoc]
      refine or_congr Iff.rfl ⟨.inl, ?_⟩
      rintro (h | h)
      · exact h
      · exact absurd h.1.symm ht

theorem importOrders_imported {db₀ : Db} : ∀ {is done : List Incoming} {st : State},
    Imported siteID db₀ done st → (∀ i ∈ is, OwnOrder i) → importOrders siteID st is = .ok st' →
      Imported siteID db₀ (done ++ is) st'
  | [], done, st, hI, _, h => by
    cases h
    rwa [append_nil]
  | i :: is, done, st, hI, hown, h => by
    obtain ⟨st₁, hst₁, h⟩ := bind_ok_iff.1 h
    have hI₁ := importOrder_imported hI (hown i (by simp)) hst₁
    have := importOrders_imported hI₁ (fun j hj => hown j (by simp [hj])) h
    rwa [append_assoc, singleton_append] at this

theorem imported_nil {s : Store ℤ DBOrder} (hk : db.OrderKeys) : Imported siteID db [] (db, s) :=
  ⟨hk, by simp, by simp, by simp⟩

end Import

section Render

variable {st : State} {is : List Incoming}

def shown (spProductGet : Db → ℤ → Option DBProduct) (db : Db) (c : IwsCredit)
    (order : Option DBOrder) : Option Credit :=
  match spProductGet db c.packageID, order with
  | some product, some order => some (renderCredit c product order.orderID order.orderExternalID)
  | _, _ => none

theorem renderEach_eq : ∀ {cs : List IwsCredit} {s : Store ℤ DBOrder},
    (∀ c ∈ cs, ∃ v, s c.txnID = some v) → renderEach siteID spProductGet db s cs =
      (s, cs.map fun c => shown spProductGet db c (EntityCache.cached s c.txnID))
  | [], s, _ => rfl
  | c :: cs, s, h => by
    obtain ⟨v, hv⟩ := h c (by simp)
    have ih := renderEach_eq (fun c' hc' => h c' (by simp [hc']) : ∀ c' ∈ cs, _)
    simp only [renderEach, get_of_entry hv, ih, map_cons]
    rfl

theorem filterMap_sublist {α β : Type*} {f g : α → Option β} : ∀ {l : List α},
    (∀ a ∈ l, f a = none ∨ f a = g a) → (l.filterMap f).Sublist (l.filterMap g)
  | [], _ => by simp
  | a :: l, h => by
    have ih := filterMap_sublist fun a' ha' => h a' (mem_cons_of_mem a ha')
    simp only [filterMap_cons]
    rcases h a (by simp) with hf | hf <;> rw [hf]
    · cases g a
      · exact ih
      · exact ih.cons _
    · cases g a
      · exact ih
      · exact ih.cons_cons _

theorem filterMap_eq_iff {α β : Type*} {f g : α → Option β} : ∀ {l : List α},
    (∀ a ∈ l, f a = none ∨ f a = g a) → (l.filterMap f = l.filterMap g ↔ ∀ a ∈ l, f a = g a)
  | [], _ => by simp
  | a :: l, h => by
    have hl : ∀ a ∈ l, f a = none ∨ f a = g a := fun a' ha' => h a' (mem_cons_of_mem a ha')
    have ih := filterMap_eq_iff hl
    simp only [filterMap_cons, forall_mem_cons, ← ih]
    rcases h a (by simp) with hf | hf <;> rw [hf]
    · rcases g a with _ | b
      · simp
      · have hlen := (filterMap_sublist hl).length_le
        refine iff_of_false (fun heq => ?_) (by simp)
        have heq' := congrArg List.length heq
        simp only [length_cons] at heq'
        omega
    · cases g a <;> simp

theorem render_eq {db₀ : Db} (hI : Imported siteID db₀ is st) :
    (render siteID spProductGet st (is.map (·.credit))).2 = is.filterMap fun i =>
      shown spProductGet st.1 i.credit (EntityCache.cached st.2 i.credit.txnID) := by
  have hkept : ∀ i ∈ is, ((st.1.siteOrderCacheByExternalID siteID).getMany false
      (is.map (·.credit.txnID)) st.2).1 i.credit.txnID = st.2 i.credit.txnID := by
    intro i hi
    obtain ⟨v, hv, -⟩ := hI.entry i hi
    exact getMany_kept (Db.siteOrderCacheByExternalID_reads hI.keys siteID) (by simp [hv])
  simp only [render, map_map, Function.comp_def]
  rw [renderEach_eq]
  · simp only [map_map, filterMap_map, Function.comp_def, id_eq]
    refine filterMap_congr fun i hi => ?_
    simp only [EntityCache.cached, hkept i hi]
  · intro c hc
    obtain ⟨i, hi, rfl⟩ := mem_map.1 hc
    obtain ⟨v, hv, -⟩ := hI.entry i hi
    exact ⟨v, (hkept i hi).trans hv⟩

theorem shown_of_entity {db₀ : Db} (hI : Imported siteID db₀ is st) {i : Incoming} (hi : i ∈ is)
    (he : ∃ e, st.2 i.credit.txnID = some (.entity e)) :
    shown spProductGet st.1 i.credit (EntityCache.cached st.2 i.credit.txnID) =
      match spProductGet st.1 i.credit.packageID, orderRow siteID st.1 i.credit.txnID with
      | some product, some o => some (renderCredit i.credit product o.id i.credit.txnID)
      | _, _ => none := by
  obtain ⟨e, he⟩ := he
  obtain ⟨v, hv, hok⟩ := hI.entry i hi
  obtain rfl : v = .entity e := Option.some.inj (hv.symm.trans he)
  obtain ⟨hx, o, ho, hid⟩ := hok e rfl
  simp only [shown, EntityCache.cached, he, ho]
  cases spProductGet st.1 i.credit.packageID
  · rfl
  · simp only [hx, hid]

theorem shown_of_marker {db₀ : Db} (hI : Imported siteID db₀ is st) {i : Incoming} (hi : i ∈ is)
    (he : ¬ ∃ e, st.2 i.credit.txnID = some (.entity e)) :
    shown spProductGet st.1 i.credit (EntityCache.cached st.2 i.credit.txnID) = none := by
  obtain ⟨v, hv, -⟩ := hI.entry i hi
  rcases v with e | _
  · exact absurd ⟨e, hv⟩ he
  · simp only [shown, EntityCache.cached, hv]
    cases spProductGet st.1 i.credit.packageID <;> rfl

/-- Every usable credit is returned if and only if each order that was not known before the call,
and is recorded by it, has another credit after the one it is recorded for. -/
theorem getCredits_iff {s : Store ℤ DBOrder} (hk : db.OrderKeys) (hown : ∀ i ∈ is, OwnOrder i)
    (himport : importOrders siteID (db, s) is = .ok st) :
    (∃ s', getCredits siteID spProductGet (db, s) is =
      .ok ((st.1, s'), usable siteID spProductGet st.1 is)) ↔
    ∀ i ∈ is, (spProductGet st.1 i.credit.packageID).isSome = true →
      (∃ j ∈ is, j.credit.txnID = i.credit.txnID ∧ j.order.isSome = true) →
        (orderRow siteID db i.credit.txnID).isSome = true ∨ Repeated i.credit.txnID is := by
  have hI := importOrders_imported (imported_nil hk) hown himport
  rw [nil_append] at hI
  have hget : getCredits siteID spProductGet (db, s) is =
      .ok ((st.1, (render siteID spProductGet st (is.map (·.credit))).1),
        (render siteID spProductGet st (is.map (·.credit))).2) := by
    simp only [getCredits, himport]
    rfl
  have hresult : (∃ s', getCredits siteID spProductGet (db, s) is =
      .ok ((st.1, s'), usable siteID spProductGet st.1 is)) ↔
      (render siteID spProductGet st (is.map (·.credit))).2 =
        usable siteID spProductGet st.1 is := by
    simp only [hget, Except.ok.injEq, Prod.mk.injEq, true_and]
    exact ⟨fun ⟨_, _, h⟩ => h, fun h => ⟨_, rfl, h⟩⟩
  rw [hresult, render_eq hI, usable, filterMap_eq_iff]
  · refine forall₂_congr fun i hi => ?_
    rw [← hI.cached i hi]
    by_cases he : ∃ e, st.2 i.credit.txnID = some (.entity e)
    · rw [shown_of_entity hI hi he]
      simp [he]
    · rw [shown_of_marker hI hi he]
      have hknown := hI.known i.credit.txnID
      have hdb : ¬ (orderRow siteID db i.credit.txnID).isSome = true := fun h =>
        he ((hI.cached i hi).2 (.inl h))
      rw [or_iff_right hdb] at hknown
      rw [← hknown]
      cases spProductGet st.1 i.credit.packageID <;>
        cases orderRow siteID st.1 i.credit.txnID <;> simp [he]
  · intro i hi
    by_cases he : ∃ e, st.2 i.credit.txnID = some (.entity e)
    · exact .inr (shown_of_entity hI hi he)
    · exact .inl (shown_of_marker hI hi he)

end Render

def nameSearch (_ : Db) (_ : ℤ) : Option DBProduct :=
  some { productID := 1 }

def boughtElsewhere : Incoming where
  credit := { packageID := 7, txnID := 500, units := 5, unitsLeft := 5 }
  order := some oneItemXml

theorem boughtElsewhere_ownOrder : OwnOrder boughtElsewhere := by
  intro xml hxml
  obtain rfl : oneItemXml = xml := Option.some.inj hxml
  exact ⟨rfl, by simp [oneItemXml]⟩

theorem boughtElsewhere_imported_twice : ∃ st,
    importOrders 1 (oneProductDb 49900, fun _ => none) [boughtElsewhere, boughtElsewhere]
      = .ok st :=
  ⟨_, rfl⟩

/-- Two credits of one order: the second finds the order that the first recorded, and both are
returned. -/
theorem twoCredits_returned : ∃ st s',
    importOrders 1 (oneProductDb 49900, fun _ => none) [boughtElsewhere, boughtElsewhere] = .ok st ∧
    getCredits 1 nameSearch (oneProductDb 49900, fun _ => none) [boughtElsewhere, boughtElsewhere] =
      .ok ((st.1, s'), usable 1 nameSearch st.1 [boughtElsewhere, boughtElsewhere]) := by
  obtain ⟨st, hst⟩ := boughtElsewhere_imported_twice
  have hown : ∀ i ∈ [boughtElsewhere, boughtElsewhere], OwnOrder i := by
    simp [boughtElsewhere_ownOrder]
  obtain ⟨s', hs'⟩ := (getCredits_iff (by decide) hown hst).2 (fun i hi _ _ => .inr (by
    obtain rfl : i = boughtElsewhere := by simpa using hi
    exact ⟨[], boughtElsewhere, [boughtElsewhere], rfl, rfl, rfl, boughtElsewhere, by simp, rfl⟩))
  exact ⟨st, s', hst, hs'⟩

/-- One credit of an order the site does not have: the order is imported, and the credit dropped. -/
theorem oneCredit_dropped : (oneProductDb 49900).OrderKeys ∧ OwnOrder boughtElsewhere ∧
    ∃ st s', importOrders 1 (oneProductDb 49900, fun _ => none) [boughtElsewhere] = .ok st ∧
    (usable 1 nameSearch st.1 [boughtElsewhere]).length = 1 ∧
    getCredits 1 nameSearch (oneProductDb 49900, fun _ => none) [boughtElsewhere] =
      .ok ((st.1, s'), []) :=
  ⟨by decide, boughtElsewhere_ownOrder, _, _, rfl, rfl, rfl⟩

end Credits

end AciX
