import AciX.Report.Create
import AciX.User.SignIn

/-!
# Adding to the cart

`Cart.AddSku` searches for the person if a first and a last name are given, and puts an item for the
article into the cart, whose name has the initial and the state of the current query. The initial
may be `NULL` and is trimmed without a test, and the state is looked up among those that are known.
So the item is added, or refused for a reason, exactly if the query has an initial and the state is
known or empty (`lists_and_addsOrDeclines_iff`). The same holds of the items of orders that are
listed.
-/

namespace AciX

open EntityCache

structure CatalogSku where
  skuID : ℤ
  productName : Option Text := none
  productExternalID : ℤ := 0
  productToken : Option Text := none
  offerToken : Option Text := none
  discountAmount : ℤ := 0
  recurringPrice : ℤ := 0
  price : ℤ := 0
  reportTypeCode : Option Text := none
  productCode : Option Text := none
  skuCode : Option Text := none
  requireQueryID : Bool := false
  requireState : Bool := false
  requireProfileID : Bool := false
  subscriptionQuantityRemaining : ℤ := 0
  subscriptionOrderID : ℤ := 0

inductive AddExn where
  | queryRequired
  | stateRequired
  | profileRequired
  | nullResponse
  | other (e : Exn)

structure AddRequest where
  skuID : ℤ
  profileID : Option Text := none
  firstName : Option Text := none
  lastName : Option Text := none
  state : Option Text := none
  promoCode : Option Text := none

/-- What the procedures and the storefront answer. The products come with their skus. -/
structure AddEnv where
  productGet : Except Exn (List (List CatalogSku))
  applyPromoItem : Text → Text → Except Exn Unit := fun _ _ => .ok ()
  spCartUpdate : OrderItem → Except Exn Unit := fun _ => .ok ()

section Model

namespace Db

variable (db : Db)

def inStateAdded (state : Option Text) : Except Exn Text :=
  if state.getD [] = [] then .ok [] else (db.stateByAbbr (state.getD [])).map (" in ".toList ++ ·)

def nameItem (item : OrderItem) (query : DBQuery) (state : Option Text) : Except Exn OrderItem := do
  let initial ← match query.middleInitial with
    | none => .error Exn.nullReference
    | some m => .ok (if m.all isSpace then [] else ' ' :: m)
  let inState ← db.inStateAdded (state.or query.state)
  return { item with
    firstName := query.firstName
    middleInitial := query.middleInitial
    lastName := query.lastName
    state := state.or query.state
    productName := some (item.productName.getD [] ++ " for ".toList ++ query.firstName.getD [] ++
      initial ++ ' ' :: query.lastName.getD [] ++ inState) }

def getOrderItem (v : DBVisit) (sku : CatalogSku) (profileID state : Option Text) :
    Except Exn OrderItem :=
  let item : OrderItem :=
    { productID := sku.skuID
      productExternalID := sku.productExternalID
      productName := sku.productName
      productCode := sku.productCode
      skuCode := sku.skuCode
      productToken := sku.productToken
      offerToken := sku.offerToken
      quantity := 1
      regularPrice := sku.price + sku.discountAmount
      discountAmount := sku.discountAmount
      price := sku.price
      recurringPrice := sku.recurringPrice
      queryID := v.currentQueryID
      profileID := profileID
      state := state
      skuID := sku.skuID
      reportTypeCode := sku.reportTypeCode
      subscriptionQuantityRemaining := sku.subscriptionQuantityRemaining
      subscriptionOrderID := sku.subscriptionOrderID }
  if sku.requireQueryID ∨ v.currentQueryID ≠ 0 then
    match (db.spQueryGet v.currentQueryID).head? with
    | none => .ok item
    | some query => db.nameItem item query state
  else .ok item

end Db

def findSku (skuID : ℤ) : List (List CatalogSku) → Except Exn CatalogSku
  | [] => .error .noElements
  | [] :: _ => .error .indexOutOfRange
  | (sku :: _) :: products => if sku.skuID = skuID then .ok sku else findSku skuID products

def checkSku (v : DBVisit) (r : AddRequest) (sku : CatalogSku) : Except AddExn Unit :=
  if sku.requireQueryID ∧ v.currentQueryID = 0 then .error .queryRequired
  else if sku.requireState ∧ v.currentQueryState.getD [] = [] ∧ r.state.getD [] = [] then
    .error .stateRequired
  else if sku.requireProfileID ∧ r.profileID.getD [] = [] then .error .profileRequired
  else .ok ()

namespace AddEnv

variable (env : AddEnv) (r : AddRequest)

def applyPromo (sku : CatalogSku) : Except Exn Unit :=
  match r.promoCode, sku.productToken with
  | some promoCode, some token => env.applyPromoItem (token.filter (· ≠ '\n')) promoCode
  | _, _ => .ok ()

end AddEnv

namespace World

variable (w : World) (env : AddEnv) (v : DBVisit) (r : AddRequest)

def addItem : World × Except AddExn Cart :=
  match env.productGet >>= findSku r.skuID with
  | .error e => (w, .error (.other e))
  | .ok sku =>
    match checkSku v r sku with
    | .error e => (w, .error e)
    | .ok _ =>
      match env.applyPromo r sku >>= fun _ => w.db.getOrderItem v sku r.profileID r.state with
      | .error e => (w, .error (.other e))
      | .ok item =>
        let cart : Cart := { v.cart.getD {} with items := some [item] }
        (w.visitSet { v with cart := some cart },
          match env.spCartUpdate item with
          | .error e => .error (.other e)
          | .ok _ => .ok cart)

/-- `Cart.AddSku`; `previews` is the query id of what `GetPreviews` returns for the names. -/
def addSku (previews : Except Exn (Option ℤ)) : World × Except AddExn Cart :=
  if r.firstName ≠ none ∧ r.lastName ≠ none then
    match previews with
    | .error e => (w, .error (.other e))
    -- The condition is `response != null & response.QueryID != 0`: both sides are evaluated.
    | .ok none => (w, .error .nullResponse)
    | .ok (some queryID) =>
      if queryID ≠ 0 then
        (w.setQuery v r.state queryID).addItem env
          { v with currentQueryState := r.state, currentQueryID := queryID } r
      else w.addItem env v r
  else w.addItem env v r

end World

end Model

/-- The item is in the cart, or one of the exceptions declared for it tells what is missing. -/
def AddsOrDeclines (result : Except AddExn Cart) : Prop :=
  (∃ cart item, result = .ok cart ∧ cart.items = some [item]) ∨ result = .error .queryRequired ∨
    result = .error .stateRequired ∨ result = .error .profileRequired

def AddRequest.Named (r : AddRequest) : Prop := r.firstName ≠ none ∧ r.lastName ≠ none

instance (r : AddRequest) : Decidable r.Named := inferInstanceAs (Decidable (_ ∧ _))

def DBVisit.searched (v : DBVisit) (r : AddRequest) (previews : Except Exn (Option ℤ)) : DBVisit :=
  match previews with
  | .ok (some queryID) =>
    if r.Named ∧ queryID ≠ 0 then
      { v with currentQueryState := r.state, currentQueryID := queryID }
    else v
  | _ => v

/-- An item for the sku can be named: the query it is bought for has an initial, and the state is
empty or known. -/
def Db.Nameable (db : Db) (v : DBVisit) (sku : CatalogSku) (state : Option Text) : Prop :=
  sku.requireQueryID ∨ v.currentQueryID ≠ 0 →
    ∀ query ∈ (db.spQueryGet v.currentQueryID).head?, query.middleInitial ≠ none ∧
      ((state.or query.state).getD [] ≠ [] →
        ∃ s ∈ db.geoStates, toUpper s.1 = toUpper ((state.or query.state).getD []))

section Add

variable {db : Db} {w : World} {env : AddEnv} {v : DBVisit} {r : AddRequest} {sku : CatalogSku}
  {state : Option Text}

theorem inStateAdded_ok_iff : (∃ t, db.inStateAdded state = .ok t) ↔
    (state.getD [] ≠ [] → ∃ s ∈ db.geoStates, toUpper s.1 = toUpper (state.getD [])) := by
  rw [← Db.stateByAbbr_ok_iff]
  unfold Db.inStateAdded
  split_ifs with h
  · exact ⟨fun _ hne => absurd h hne, fun _ => ⟨_, rfl⟩⟩
  · rw [exists_map_ok_iff]
    exact ⟨fun hok _ => hok, fun hok => hok h⟩

theorem nameItem_ok_iff {item : OrderItem} {query : DBQuery} :
    (∃ i, db.nameItem item query state = .ok i) ↔ query.middleInitial ≠ none ∧
      ((state.or query.state).getD [] ≠ [] →
        ∃ s ∈ db.geoStates, toUpper s.1 = toUpper ((state.or query.state).getD [])) := by
  rw [← inStateAdded_ok_iff]
  unfold Db.nameItem
  rcases query.middleInitial with _ | m
  · exact ⟨fun ⟨i, hi⟩ => (by cases hi), fun h => absurd rfl h.1⟩
  · constructor
    · rintro ⟨i, hi⟩
      obtain ⟨_, -, hrest⟩ := bind_ok_iff.1 hi
      obtain ⟨t, ht, -⟩ := bind_ok_iff.1 hrest
      exact ⟨by simp, t, ht⟩
    · rintro ⟨-, t, ht⟩
      rw [ht]
      exact ⟨_, rfl⟩

theorem getOrderItem_ok_iff {profileID : Option Text} :
    (∃ i, db.getOrderItem v sku profileID state = .ok i) ↔ db.Nameable v sku state := by
  unfold Db.getOrderItem Db.Nameable
  simp only
  split_ifs with h
  · rcases (db.spQueryGet v.currentQueryID).head? with _ | query
    · exact ⟨fun _ _ query hq => (by cases hq), fun _ => ⟨_, rfl⟩⟩
    · simp only [nameItem_ok_iff, Option.mem_def, Option.some.injEq, forall_eq']
      exact ⟨fun hok _ => hok, fun hok => hok h⟩
  · exact ⟨fun _ h' => absurd h' h, fun _ => ⟨_, rfl⟩⟩

theorem checkSku_declines {e : AddExn} (h : checkSku v r sku = .error e) :
    e = .queryRequired ∨ e = .stateRequired ∨ e = .profileRequired := by
  unfold checkSku at h
  split_ifs at h <;> cases h <;> simp

section Serves

variable (hsku : (env.productGet >>= findSku r.skuID) = .ok sku)
  (hpromo : env.applyPromo r sku = .ok ()) (hcart : ∀ item, env.spCartUpdate item = .ok ())

include hsku hpromo hcart

theorem addItem_iff (w : World) (v : DBVisit) : AddsOrDeclines (w.addItem env v r).2 ↔
    (checkSku v r sku = .ok () → w.db.Nameable v sku r.state) := by
  unfold World.addItem
  rw [hsku]
  simp only
  rcases hcheck : checkSku v r sku with e | _
  · refine ⟨fun _ h => (by cases h), fun _ => .inr ?_⟩
    rcases checkSku_declines hcheck with rfl | rfl | rfl <;> simp
  · have hpromo' : (env.applyPromo r sku >>= fun _ => w.db.getOrderItem v sku r.profileID r.state) =
        w.db.getOrderItem v sku r.profileID r.state := by
      rw [hpromo]
      rfl
    rw [hpromo', ← getOrderItem_ok_iff]
    rcases w.db.getOrderItem v sku r.profileID r.state with e | item
    · simp [AddsOrDeclines]
    · simp [AddsOrDeclines, hcart]

theorem addSku_iff {previews : Except Exn (Option ℤ)} :
    AddsOrDeclines (w.addSku env v r previews).2 ↔
      (r.Named → ∃ queryID, previews = .ok (some queryID)) ∧
        (checkSku (v.searched r previews) r sku = .ok () →
          w.db.Nameable (v.searched r previews) sku r.state) := by
  unfold World.addSku
  split_ifs with hnamed
  · rcases previews with e | _ | queryID
    · exact ⟨fun h => by simp [AddsOrDeclines] at h, fun h => by simpa using h.1 hnamed⟩
    · exact ⟨fun h => by simp [AddsOrDeclines] at h, fun h => by simpa using h.1 hnamed⟩
    · rw [and_iff_right fun _ => ⟨queryID, rfl⟩]
      simp only [DBVisit.searched]
      by_cases hq : queryID ≠ 0
      · rw [if_pos hq, if_pos ⟨hnamed, hq⟩]
        exact addItem_iff hsku hpromo hcart _ _
      · rw [if_neg hq, if_neg fun h => hq h.2]
        exact addItem_iff hsku hpromo hcart w v
  · have hsearched : v.searched r previews = v := by
      unfold DBVisit.searched
      split
      · exact if_neg fun h => hnamed h.1
      · rfl
    rw [and_iff_right fun h : r.Named => absurd h hnamed, hsearched]
    exact addItem_iff hsku hpromo hcart w v

end Serves

theorem orderGet_ok_iff {w : OrderWorld} (hk : w.db.OrderKeys) (ctx : CallContext)
    (keys : List ℤ) : (∃ orders, (w.orderGet ctx keys).2 = .ok orders) ↔
      ∀ k ∈ keys, ∀ e, answer (w.db.orderOf ctx.siteID) false
        (w.orderCache ctx.siteID) k = some e → w.db.Renderable e := by
  have hread := (getMany_spec (s := w.orderCache ctx.siteID)
    (Db.siteOrderCache_reads hk ctx.siteID) false keys).1
  simp only [OrderWorld.orderGet, hread, exists_mapM_ok_iff, Db.renderOrder_ok_iff,
    List.mem_filterMap, mem_distinct]
  refine ⟨fun h k hkey e he => h e ⟨k, hkey, he⟩, ?_⟩
  rintro h e ⟨k, hkey, he⟩
  exact h k hkey e he

end Add

/-- Orders are listed exactly if each of them can be rendered, and an item is added or declined
exactly if the search answers and an item that is not declined can be named. -/
theorem World.lists_and_addsOrDeclines_iff {w : World} (hk : w.db.OrderKeys) (ctx : CallContext)
    (keys : List ℤ) (env : AddEnv) (r : AddRequest) (sku : CatalogSku)
    (hsku : (env.productGet >>= findSku r.skuID) = .ok sku)
    (hpromo : env.applyPromo r sku = .ok ()) (hcart : ∀ item, env.spCartUpdate item = .ok ())
    (v : DBVisit) (previews : Except Exn (Option ℤ)) :
    ((∃ orders, (w.orderGet ctx keys).2 = .ok orders) ↔
      ∀ k ∈ keys, ∀ e, EntityCache.answer (w.db.orderOf ctx.siteID) false
        (w.orderCache ctx.siteID) k = some e → w.db.Renderable e) ∧
    (AddsOrDeclines (w.addSku env v r previews).2 ↔
      (r.Named → ∃ queryID, previews = .ok (some queryID)) ∧
        (checkSku (v.searched r previews) r sku = .ok () →
          w.db.Nameable (v.searched r previews) sku r.state)) :=
  ⟨orderGet_ok_iff hk ctx keys, addSku_iff hsku hpromo hcart⟩

def annLee (initial : Option Text) : World where
  db :=
    { orders := [{ siteID := 1, id := 5 }]
      orderItems := [{ siteID := 1, id := 6, orderID := 5, productID := some 3, queryID := some 9,
                       state := some ['C', 'A'] }]
      products := [{ siteID := 1, id := 3, skuID := 4, productExternalID := 30, price := 0 }]
      skus := [{ siteID := 1, id := 4, categoryID := some 2 }]
      categories := [{ siteID := 1, id := 2, categoryName := ['R'] }]
      searchResults := [{ id := 9, firstNameID := some 1, lastNameID := some 1
                          middleInitial := initial }]
      firstNames := [⟨1, some ['A', 'n', 'n']⟩]
      lastNames := [⟨1, some ['L', 'e', 'e']⟩]
      geoStates := [(['C', 'A'], "California".toList)] }
  orderCache := fun _ _ => none
  visitCache := fun _ => none

def reportSku : CatalogSku := { skuID := 4, requireQueryID := true }

def oneSku : AddEnv where
  productGet := .ok [[reportSku]]

def visitOfAnn : DBVisit :=
  { visitID := 1, visitGuid := ⟨"0f8fad5b-d9cb-469f-a165-70867728950e".toList, Guid.shape_first⟩
    siteID := 1, currentQueryID := 9 }

theorem annLee_keys (initial : Option Text) : (annLee initial).db.OrderKeys := by
  constructor <;> simp [annLee, Sql.Unique]

theorem annLee_lists_and_adds :
    (∃ orders, ((annLee (some [' '])).orderGet { siteID := 1 } [5]).2 = .ok orders) ∧
    AddsOrDeclines ((annLee (some [' '])).addSku oneSku visitOfAnn
      { skuID := 4, state := some ['c', 'a'] } (.ok none)).2 := by
  obtain ⟨hlist, hadd⟩ := World.lists_and_addsOrDeclines_iff (annLee_keys (some [' ']))
    { siteID := 1 } [5] oneSku { skuID := 4, state := some ['c', 'a'] } reportSku rfl rfl
    (fun _ => rfl) visitOfAnn (.ok none)
  refine ⟨hlist.2 fun k hkey e he => ?_, hadd.2 ⟨by simp [AddRequest.Named], fun _ _ => ?_⟩⟩
  · obtain rfl := List.mem_singleton.1 hkey
    cases he
    intro i hi _
    obtain rfl := List.mem_singleton.1 hi
    exact ⟨by simp, fun _ => ⟨_, List.mem_singleton_self _, rfl⟩⟩
  · rintro query ⟨⟩
    exact ⟨by simp, fun _ => ⟨_, List.mem_singleton_self _, by decide⟩⟩

/-- An order with an item for somebody without an initial is not listed, and an item for a state
that is none is neither added nor declined. -/
theorem annLee_not_listed_nor_added :
    (¬ ∃ orders, ((annLee none).orderGet { siteID := 1 } [5]).2 = .ok orders) ∧
    ¬ AddsOrDeclines ((annLee (some [' '])).addSku oneSku visitOfAnn
      { skuID := 4, state := some ['Z', 'Z'] } (.ok none)).2 := by
  constructor
  · rintro ⟨orders, h⟩
    cases h
  · have h : ((annLee (some [' '])).addSku oneSku visitOfAnn
        { skuID := 4, state := some ['Z', 'Z'] } (.ok none)).2 = .error (.other .keyNotFound) := rfl
    rw [h]
    simp [AddsOrDeclines]

end AciX
