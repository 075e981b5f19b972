import AciX.Order.Access
import AciX.Order.Readable
import AciX.Visit.Get

/-!
# Checkout

An order whose items are all covered by a subscription is free. The subscription an item claims is a
field of the cart, which the client may post, so a free order is granted against real entitlement
only for a cart of one item that names an order of the caller's (`free_order_entitled_iff`).

Any other cart is charged first; then the order is recorded, looked up, confirmed and synchronized,
and the cart is cleared last. If a step fails in between, the next request charges the cart again
(`no_second_charge_iff`).
-/

namespace AciX

structure Card where
  cardId : ℤ
  active : ℤ

structure Response (α : Type) where
  responseCode : ℤ := 1000
  message : Text := []
  content : α

def Response.check {α : Type} (r : Response α) : Except Exn α :=
  if r.responseCode ≠ 1000 then .error (.iws r.message) else .ok r.content

structure Debit where
  units : ℕ
  le_one : units ≤ 1

/-- What the services and the procedures without a source answer during one checkout. -/
structure CheckoutEnv where
  now : ℤ := 0
  productGet : Except Exn Unit := .ok ()
  subscriptionItemDebit : ℕ → ℤ → ℤ → Except Exn Debit
  /-- `GetPaymentInformation` for a token and a user; `none` is a response without a wallet. -/
  paymentInformation : Option Text → ℤ → Except Exn (Option (List Card))
  validate : ℤ → List (Option Text) → Except Exn (Response Text)
  transact : ℤ → List (Option Text) → Text → Except Exn (Response OrderXml)
  sendReceipt : Order → Except Exn Unit := fun _ => .ok ()
  getSubscriptions : Except Exn Unit := .ok ()
  /-- The orders `spUserSubscriptionUpdate` does not know, in its first and in its second call. -/
  subscriptionUpdate : Bool → Except Exn (List ℤ) := fun _ => .ok []
  getTransactions : List ℤ → Except Exn (Response OrderXml) := fun _ => .error .web
  userUpdate : Except Exn Unit := .ok ()

inductive Call where
  | debit (siteID : ℕ) (userID skuID : ℤ) (units : ℕ)
  | transact (offerings : List (Option Text)) (accepted : Bool)
  deriving DecidableEq

def Call.units : Call → ℕ
  | .debit _ _ _ n => n
  | .transact _ _ => 0

structure Outcome (ω : Type) where
  world : ω
  calls : List Call
  result : Except Exn Order

structure Scan where
  freeOrder : Bool := true
  subscriptionOrderID : ℤ := 0
  subscriptionItemSkuID : ℤ := 0

def Scan.step (s : Scan) (i : OrderItem) : Scan where
  freeOrder :=
    if i.subscriptionOrderID = 0 ∨ i.subscriptionQuantityRemaining ≤ 0 then false else s.freeOrder
  subscriptionOrderID :=
    if i.subscriptionOrderID ≠ 0 then i.subscriptionOrderID else s.subscriptionOrderID
  subscriptionItemSkuID := if i.subscriptionOrderID ≠ 0 then i.skuID else s.subscriptionItemSkuID

def scan (items : List OrderItem) : Scan := items.foldl Scan.step {}

theorem foldl_step_freeOrder :
    ∀ (items : List OrderItem) (s : Scan), (items.foldl Scan.step s).freeOrder = true ↔
      s.freeOrder = true ∧
        ∀ i ∈ items, i.subscriptionOrderID ≠ 0 ∧ 0 < i.subscriptionQuantityRemaining
  | [], s => by simp
  | i :: items, s => by
    rw [List.foldl_cons, foldl_step_freeOrder items (s.step i), List.forall_mem_cons]
    by_cases h : i.subscriptionOrderID = 0 ∨ i.subscriptionQuantityRemaining ≤ 0
    · have : ¬ (i.subscriptionOrderID ≠ 0 ∧ 0 < i.subscriptionQuantityRemaining) := by omega
      simp [Scan.step, h, this]
    · have : i.subscriptionOrderID ≠ 0 ∧ 0 < i.subscriptionQuantityRemaining := by omega
      simp [Scan.step, this]

theorem scan_freeOrder {items : List OrderItem} : (scan items).freeOrder = true ↔
    ∀ i ∈ items, i.subscriptionOrderID ≠ 0 ∧ 0 < i.subscriptionQuantityRemaining := by
  rw [scan, foldl_step_freeOrder]
  exact and_iff_right rfl

def offerings (items : List OrderItem) : List (Option Text) :=
  items.map fun i => i.offerToken.or i.productToken

def cartProfileID (items : List OrderItem) : Option Text :=
  items.foldl (fun p i => if p = none ∧ i.profileID ≠ none then i.profileID else p) none

def cartQueryID (currentQueryID : ℤ) (items : List OrderItem) : ℤ :=
  items.foldl (fun q i => if q = 0 ∧ i.queryID ≠ 0 then i.queryID else q) currentQueryID

def hasSubscription (order : Order) : Bool :=
  order.items.any fun i => i.productType = some "Subscription".toList

def isDecline (reason : Text) : Bool :=
  toLower reason ≠ "decline_alreadyinservice".toList && (toLower reason).contains "decline".toList

def Db.clearPaymentMethod (db : Db) (userID : ℤ) : Db :=
  { db with
    users := db.users.map fun u =>
      if u.id = userID then { u with hasValidPaymentMethod := false } else u }

namespace CheckoutEnv

variable (env : CheckoutEnv) (ctx : CallContext)

def getPaymentMethod (v : DBVisit) : Except Exn ℤ :=
  match env.paymentInformation v.storefrontUserToken (v.iwsUserID.getD 0) with
  | .error e => .error e
  | .ok none => .error .nullReference
  | .ok (some cards) =>
    match cards.find? (·.active ≠ 0), ctx.dbUser with
    | some card, some _ => .ok card.cardId
    | _, _ => .error .nullReference

def storefrontCheckout (v : DBVisit) (items : List OrderItem) : List Call × Except Exn OrderXml :=
  match env.getPaymentMethod ctx v with
  | .error e => ([], .error e)
  | .ok payment =>
    match env.validate payment (offerings items) >>= Response.check with
    | .error e => ([], .error e)
    | .ok token =>
      let r := env.transact payment (offerings items) token >>= Response.check
      ([.transact (offerings items) r.isOk], r)

def Validated (v : DBVisit) (items : List OrderItem) : Prop :=
  ∃ payment token, env.getPaymentMethod ctx v = .ok payment ∧
    (env.validate payment (offerings items) >>= Response.check) = .ok token

theorem storefrontCheckout_cases (v : DBVisit) (items : List OrderItem) :
    (env.Validated ctx v items ∧ ∃ r, env.storefrontCheckout ctx v items
        = ([.transact (offerings items) r.isOk], r)) ∨
      (¬ env.Validated ctx v items ∧ ∃ e, env.storefrontCheckout ctx v items = ([], .error e)) := by
  unfold storefrontCheckout Validated
  rcases env.getPaymentMethod ctx v with e | payment
  · exact .inr ⟨fun ⟨_, _, h, _⟩ => by simp at h, e, rfl⟩
  rcases hv : env.validate payment (offerings items) >>= Response.check with e | token
  · refine .inr ⟨fun ⟨_, _, h, h'⟩ => ?_, e, by simp [hv]⟩
    obtain rfl := Except.ok.inj h
    rw [hv] at h'
    cases h'
  · exact .inl ⟨⟨payment, token, rfl, hv⟩,
      env.transact payment (offerings items) token >>= Response.check, by simp [hv]⟩

end CheckoutEnv

namespace OrderWorld

section Model

variable (w : OrderWorld) (env : CheckoutEnv) (ctx : CallContext)

def getSubscriptions : OrderWorld × Except Exn Unit :=
  match env.getSubscriptions >>= fun _ => env.subscriptionUpdate false with
  | .error e => (w, .error e)
  | .ok [] => (w, .ok ())
  | .ok unknown =>
    match env.getTransactions unknown >>= Response.check with
    | .error e => (w, .error e)
    | .ok xml =>
      let r := w.createFromIwsOrder env.now ctx xml none none
      match r.2 >>= fun _ => env.subscriptionUpdate true with
      | .error e => (r.1, .error e)
      | .ok [] => (r.1, .ok ())
      | .ok _ => (r.1, .error (.iws "Unknown IWS orders".toList))

/-- The receipt for a new order, and the synchronization after a subscription was bought. -/
def confirm (order : Order) : OrderWorld × Except Exn Order :=
  match env.sendReceipt order with
  | .error e => (w, .error e)
  | .ok _ =>
    if hasSubscription order then
      let r := w.getSubscriptions env ctx
      (r.1, r.2.map fun _ => order)
    else (w, .ok order)

def afterCharge (xml : OrderXml) (queryID : ℤ) (profileID : Option Text) :
    OrderWorld × Except Exn Order :=
  let created := w.createFromIwsOrder env.now ctx xml (some queryID) profileID
  match created.2 with
  | .error e => (created.1, .error e)
  | .ok orderID =>
    let r := created.1.orderGet ctx [orderID]
    match r.2 with
    | .error e => (r.1, .error e)
    | .ok [] => (r.1, .error .indexOutOfRange)
    | .ok (order :: _) => r.1.confirm env ctx order

def freeCheckout (s : Scan) : Outcome OrderWorld :=
  match env.subscriptionItemDebit ctx.siteID ctx.authorizedUserID s.subscriptionItemSkuID with
  | .error e => { world := w, calls := [], result := .error e }
  | .ok d =>
    let r := w.orderGet ctx [s.subscriptionOrderID]
    { world := r.1
      calls := [.debit ctx.siteID ctx.authorizedUserID s.subscriptionItemSkuID d.units]
      result := r.2.bind fun orders =>
        match orders with
        | [] => .error .noElements
        | order :: _ => .ok order }

def paidCheckout (v : DBVisit) (items : List OrderItem) : Outcome OrderWorld :=
  let charge := env.storefrontCheckout ctx v items
  match charge.2 with
  | .error e => { world := w, calls := charge.1, result := .error e }
  | .ok xml =>
    let r := w.afterCharge env ctx xml (cartQueryID v.currentQueryID items) (cartProfileID items)
    { world := r.1, calls := charge.1, result := r.2 }

def catchIws (o : Outcome OrderWorld) : Outcome OrderWorld :=
  match o.result with
  | .error (.iws reason) =>
    if isDecline reason then
      match env.userUpdate with
      | .error e => { o with result := .error e }
      | .ok _ =>
        { o with
          world := { o.world with db := o.world.db.clearPaymentMethod ctx.authorizedUserID }
          result := .error .creditCardDeclined }
    else o
  | _ => o

def checkout : Outcome OrderWorld :=
  let fail (e : Exn) : Outcome OrderWorld := { world := w, calls := [], result := .error e }
  match ctx.dbVisit with
  | none => fail .nullReference
  | some v =>
    match v.cart with
    | none => fail .cartEmpty
    | some { items := none } => fail .nullReference
    | some { items := some [] } => fail .cartEmpty
    | some { items := some items } =>
      match env.productGet with
      | .error e => fail e
      | .ok _ =>
        if (scan items).freeOrder then w.freeCheckout env ctx (scan items)
        else catchIws env ctx (w.paidCheckout env ctx v items)

end Model

end OrderWorld

namespace World

variable (w : World) (env : CheckoutEnv) (ctx : CallContext)

/-- `Cart.Update`, which the requests `cart/update` and `cart/clear` call with any cart and with
none. -/
def cartUpdate (cart : Option Cart) : World :=
  match ctx.dbVisit with
  | none => w
  | some v => w.visitSet { v with cart := cart }

def cartCheckout : Outcome World :=
  let fail (e : Exn) : Outcome World := { world := w, calls := [], result := .error e }
  if ctx.authorizedUserID = 0 then fail .authorizationRequired
  else
    match ctx.dbUser with
    | none => fail .nullReference
    | some u =>
      if !u.hasValidPaymentMethod then fail .noPaymentMethod
      else
        let o := w.toOrderWorld.checkout env ctx
        let w' : World := { w with toOrderWorld := o.world }
        { world := if o.result.isOk then w'.cartUpdate ctx none else w'
          calls := o.calls
          result := o.result }

end World

namespace OrderWorld

/-- A free order is the caller's, and a unit was debited for each item of the cart. -/
def GrantsEntitled (w : OrderWorld) (env : CheckoutEnv) (ctx : CallContext) : Prop :=
  ∀ order, (w.checkout env ctx).result = .ok order →
    (∀ offs b, Call.transact offs b ∉ (w.checkout env ctx).calls) →
    w.db.OwnedBy ctx order ∧
      ((w.checkout env ctx).calls.map Call.units).sum = ctx.cartItems.length

variable {w : OrderWorld} {env : CheckoutEnv} {ctx : CallContext} {order : Order}

theorem checkout_cases (w : OrderWorld) (env : CheckoutEnv) (ctx : CallContext) :
    (¬ (ctx.cartItems ≠ [] ∧ env.productGet = .ok ()) ∧
      ∃ e, w.checkout env ctx = { world := w, calls := [], result := .error e }) ∨
    ((ctx.cartItems ≠ [] ∧ env.productGet = .ok ()) ∧ ∃ v, ctx.dbVisit = some v ∧
      w.checkout env ctx = if (scan ctx.cartItems).freeOrder then
        w.freeCheckout env ctx (scan ctx.cartItems)
        else catchIws env ctx (w.paidCheckout env ctx v ctx.cartItems)) := by
  unfold CallContext.cartItems CallContext.cart checkout
  rcases hv : ctx.dbVisit with _ | v
  · simp
  rcases hc : v.cart with _ | ⟨_ | _ | ⟨i, items⟩⟩
  · simp [hc]
  · simp [hc]
  · simp [hc]
  · rcases hp : env.productGet with e | _
    · simp [hc]
    · simp [hc]

theorem catchIws_calls (o : Outcome OrderWorld) : (catchIws env ctx o).calls = o.calls := by
  unfold catchIws
  split
  · split_ifs
    · split <;> rfl
    · rfl
  · rfl

theorem catchIws_ok_iff {o : Outcome OrderWorld} :
    (catchIws env ctx o).result = .ok order ↔ o.result = .ok order := by
  unfold catchIws
  split
  · rename_i reason h
    rw [h]
    split_ifs
    · split <;> simp
    · simp [h]
  · rfl

theorem paidCheckout_ok {v : DBVisit} {items : List OrderItem}
    (h : (w.paidCheckout env ctx v items).result = .ok order) :
    Call.transact (offerings items) true ∈ (w.paidCheckout env ctx v items).calls := by
  unfold paidCheckout at h ⊢
  rcases env.storefrontCheckout_cases ctx v items with ⟨-, r, hr⟩ | ⟨-, e, hr⟩
  · rcases r with e | xml
    · simp [hr] at h
    · simp [hr, Except.isOk, Except.toBool]
  · simp [hr] at h

/-- A free checkout returns the subscription's order, once the debit went through and the order is
found and rendered. -/
theorem freeCheckout_ok_iff (hI : w.Inv) {s : Scan} :
    (w.freeCheckout env ctx s).result = .ok order ↔
      (∃ d, env.subscriptionItemDebit ctx.siteID ctx.authorizedUserID s.subscriptionItemSkuID
        = .ok d) ∧
      w.orderCache ctx.siteID s.subscriptionOrderID ≠ some .notInDB ∧
      ∃ e, w.db.orderOf ctx.siteID s.subscriptionOrderID = some e ∧
        w.db.renderOrder e = .ok order := by
  rw [← hI.orderGet_ok_iff]
  unfold freeCheckout
  rcases env.subscriptionItemDebit ctx.siteID ctx.authorizedUserID
    s.subscriptionItemSkuID with e | d
  · simp
  · rcases orderGet_cases hI.keys ctx s.subscriptionOrderID with ⟨e, h⟩ | h | ⟨c, h⟩ <;>
      simp [h, Except.bind]

theorem freeCheckout_calls {s : Scan} {d : Debit} (h : env.subscriptionItemDebit ctx.siteID
    ctx.authorizedUserID s.subscriptionItemSkuID = .ok d) : (w.freeCheckout env ctx s).calls
      = [.debit ctx.siteID ctx.authorizedUserID s.subscriptionItemSkuID d.units] := by
  unfold freeCheckout
  rw [h]

/-- A free order is granted against real entitlement exactly if the cart is not granted one, or the
debit or the lookup of the order fails, or the cart has one item, its unit is debited, and the order
the item names is the caller's. -/
theorem free_order_entitled_iff (hI : w.Inv) : w.GrantsEntitled env ctx ↔
    (ctx.cartItems ≠ [] →
      (∀ i ∈ ctx.cartItems, i.subscriptionOrderID ≠ 0 ∧ 0 < i.subscriptionQuantityRemaining) →
      env.productGet = .ok () →
      ∀ d, env.subscriptionItemDebit ctx.siteID ctx.authorizedUserID
        (scan ctx.cartItems).subscriptionItemSkuID = .ok d →
      w.orderCache ctx.siteID (scan ctx.cartItems).subscriptionOrderID ≠ some .notInDB →
      ∀ e, w.db.orderOf ctx.siteID (scan ctx.cartItems).subscriptionOrderID = some e →
        w.db.Renderable e →
      ctx.cartItems.length = 1 ∧ d.units = 1 ∧ ∃ o ∈ w.db.orders, o.siteID = ctx.siteID ∧
        o.id = (scan ctx.cartItems).subscriptionOrderID ∧
          o.userID = some ctx.authorizedUserID) := by
  rw [← scan_freeOrder]
  rcases checkout_cases w env ctx with ⟨hno, e, he⟩ | ⟨⟨hne, hp⟩, v, hv, hco⟩
  · refine ⟨fun _ hne _ hp => absurd ⟨hne, hp⟩ hno, fun _ order h => ?_⟩
    rw [he] at h
    cases h
  rcases hfree : (scan ctx.cartItems).freeOrder with _ | _
  · simp only [hfree, Bool.false_eq_true, if_false] at hco
    refine ⟨fun _ _ h => by simp at h, fun _ order h hno => ?_⟩
    rw [hco, catchIws_ok_iff] at h
    have hm := paidCheckout_ok h
    rw [hco, catchIws_calls] at hno
    exact absurd hm (hno _ _)
  simp only [hfree, if_true] at hco
  unfold GrantsEntitled
  simp only [hco, freeCheckout_ok_iff hI]
  refine ⟨fun h _ _ _ d hd hmark e he hr => ?_, fun h order hok _ => ?_⟩
  · obtain ⟨order, ho⟩ := Db.renderOrder_ok_iff.2 hr
    have hcalls := freeCheckout_calls (w := w) hd
    obtain ⟨⟨o, hom, hos, hou, hor⟩, hunits⟩ := h order ⟨⟨d, hd⟩, hmark, e, he, ho⟩
      (by simp [hcalls])
    simp only [hcalls, List.map_cons, List.map_nil, Call.units, List.sum_singleton] at hunits
    have hpos := List.length_pos_iff.2 hne
    have := d.le_one
    refine ⟨by omega, by omega, o, hom, hos, ?_, hou⟩
    obtain ⟨o', -, -, hid, rfl⟩ := Db.orderOf_some he
    have h1 := (Db.renderOrder_header hor).1
    have h2 := (Db.renderOrder_header ho).1
    exact (h1.symm.trans h2).trans hid
  · obtain ⟨⟨d, hd⟩, hmark, e, he, hr⟩ := hok
    have hcalls := freeCheckout_calls (w := w) hd
    obtain ⟨hlen, hunits, o, hom, hos, hoid, hou⟩ :=
      h hne trivial hp d hd hmark e he (Db.renderOrder_ok_iff.1 ⟨order, hr⟩)
    refine ⟨⟨o, hom, hos, hou, ?_⟩, ?_⟩
    · rw [← hoid, ← hos, Db.orderOf_eq hI.keys hom, Option.some.injEq] at he
      rw [he, hr]
    · simp [hcalls, Call.units, hlen, hunits]

end OrderWorld

def debitOnly : CheckoutEnv where
  subscriptionItemDebit := fun _ _ _ => .ok ⟨1, le_rfl⟩
  paymentInformation := fun _ _ => .error .web
  validate := fun _ _ => .error .web
  transact := fun _ _ _ => .error .web

def claimedItem : OrderItem :=
  { skuID := 5, subscriptionOrderID := 65537, subscriptionQuantityRemaining := 3 }

def visitOf (userID : ℤ) (cart : Option Cart) : DBVisit where
  visitID := 1
  visitGuid := ⟨"0f8fad5b-d9cb-469f-a165-70867728950e".toList, Guid.shape_first⟩
  siteID := 1
  userID := userID
  cart := cart

def contextOf (userID : ℤ) (cart : Option Cart) : CallContext :=
  CallContext.ofVisit none (some (visitOf userID cart))

theorem oneOrder_inv : oneOrder.Inv := ⟨oneOrder_keys, by decide, fun _ _ _ h => by cases h⟩

theorem oneOrder_entitled :
    oneOrder.GrantsEntitled debitOnly (contextOf 8 (some { items := some [claimedItem] })) := by
  refine (OrderWorld.free_order_entitled_iff oneOrder_inv).2 fun _ _ _ d hd _ e _ _ => ?_
  obtain rfl := Except.ok.inj hd
  exact ⟨rfl, rfl, _, List.mem_singleton_self _, rfl, rfl, rfl⟩

/-- User 7 posts a cart of two items that name the order of user 8, and is granted it for a unit. -/
theorem strangers_order_granted :
    let w : World := { oneOrder with visitCache := fun _ => none }
    let cart : Cart := { items := some [claimedItem, claimedItem] }
    let w' := w.cartUpdate (contextOf 7 none) (some cart)
    let ctx := contextOf 7 (some cart)
    w'.toOrderWorld.Inv ∧
    (w'.sendAsync (some (visitOf 7 none).visitGuid.text) none).2 = .ok ctx ∧
    (w'.toOrderWorld.checkout debitOnly ctx).calls = [.debit 1 7 5 1] ∧
    (w'.toOrderWorld.checkout debitOnly ctx).result
      = .ok { orderID := 65537, orderExternalID := 500, orderDate := none, orderTotal := 0,
              visitID := 0, userID := 8, items := [] } ∧
    ¬ w'.toOrderWorld.GrantsEntitled debitOnly ctx := by
  intro w cart w' ctx
  have hcalls : (w'.toOrderWorld.checkout debitOnly ctx).calls = [.debit 1 7 5 1] := by decide
  refine ⟨oneOrder_inv, by decide, hcalls, by decide, fun h => ?_⟩
  obtain ⟨-, hunits⟩ := h _ rfl (by simp [hcalls])
  rw [hcalls] at hunits
  exact absurd hunits (by decide)

namespace OrderWorld

/-- Every step after the charge goes through: the order is accepted, no marker stands under its id,
it was stored and can be rendered, the receipt is sent, and a subscription is synchronized. -/
structure Delivers (w : OrderWorld) (env : CheckoutEnv) (ctx : CallContext) (xml : OrderXml)
    (queryID : ℤ) (profileID : Option Text) : Prop where
  accepted : ¬ w.db.Rejects env.now ctx.siteID xml (some queryID) profileID
  unmarked : w.orderCache ctx.siteID (w.db.nextOrderID env.now) ≠ some .notInDB
  confirmed :
    let w' := (w.createFromIwsOrder env.now ctx xml (some queryID) profileID).1
    let id := w.db.nextOrderID env.now
    ∃ e order, w'.db.orderOf ctx.siteID id = some e ∧ w'.db.renderOrder e = .ok order ∧
      env.sendReceipt order = .ok () ∧
      (hasSubscription order = true →
        ((w'.orderGet ctx [id]).1.getSubscriptions env ctx).2 = .ok ())

def Completes (w : OrderWorld) (env : CheckoutEnv) (ctx : CallContext) : Prop :=
  ∃ v xml, ctx.dbVisit = some v ∧ (env.storefrontCheckout ctx v ctx.cartItems).2 = .ok xml ∧
    w.Delivers env ctx xml (cartQueryID v.currentQueryID ctx.cartItems)
      (cartProfileID ctx.cartItems)

variable {w : OrderWorld} {env : CheckoutEnv} {ctx : CallContext}

theorem createFromIwsOrder_ok_iff {now id : ℤ} {xml : OrderXml} {queryID : Option ℤ}
    {profileID : Option Text} :
    (w.createFromIwsOrder now ctx xml queryID profileID).2 = .ok id ↔
      ¬ w.db.Rejects now ctx.siteID xml queryID profileID ∧ id = w.db.nextOrderID now := by
  unfold createFromIwsOrder Db.createOrder
  rcases h : w.db.spOrderCreate now ctx.siteID xml queryID profileID with e | ⟨id', db'⟩
  · refine ⟨fun h' => (by cases h'), fun ⟨hr, _⟩ => ?_⟩
    have := Db.spOrderCreate_ok_iff.2 ⟨hr, rfl, rfl⟩
    rw [h] at this
    cases this
  · obtain ⟨hr, hid, -⟩ := Db.spOrderCreate_ok_iff.1 h
    refine ⟨fun h' => ⟨hr, ?_⟩, fun ⟨_, hid'⟩ => ?_⟩
    · rw [← Except.ok.inj h', hid]
    · rw [hid', hid]

theorem confirm_ok_iff {order : Order} : (∃ c, (w.confirm env ctx order).2 = .ok c) ↔
    env.sendReceipt order = .ok () ∧
      (hasSubscription order = true → (w.getSubscriptions env ctx).2 = .ok ()) := by
  unfold confirm
  rcases env.sendReceipt order with e | _
  · simp
  rcases hasSubscription order with _ | _
  · simp
  · rcases h : (w.getSubscriptions env ctx).2 with e | _ <;> simp [h, Except.map]

theorem afterCharge_ok_iff (hI : w.Inv) {xml : OrderXml} {queryID : ℤ} {profileID : Option Text} :
    (∃ order, (w.afterCharge env ctx xml queryID profileID).2 = .ok order) ↔
      w.Delivers env ctx xml queryID profileID := by
  have hI' := createFromIwsOrder_inv hI env.now ctx xml (some queryID) profileID
  have hcreated : ∀ id, (w.createFromIwsOrder env.now ctx xml (some queryID) profileID).2 = .ok id ↔
      ¬ w.db.Rejects env.now ctx.siteID xml (some queryID) profileID ∧
        id = w.db.nextOrderID env.now := fun _ => createFromIwsOrder_ok_iff
  have hcache : (w.createFromIwsOrder env.now ctx xml (some queryID) profileID).1.orderCache
      = w.orderCache := rfl
  unfold afterCharge
  dsimp only
  rcases hr : (w.createFromIwsOrder env.now ctx xml (some queryID) profileID).2 with e | id
  · refine ⟨fun ⟨order, h⟩ => (by cases h), fun h => ?_⟩
    have := (hcreated _).2 ⟨h.accepted, rfl⟩
    rw [hr] at this
    cases this
  obtain ⟨hacc, rfl⟩ := (hcreated id).1 hr
  have hfound : w.Delivers env ctx xml queryID profileID → ∃ c,
      ((w.createFromIwsOrder env.now ctx xml (some queryID) profileID).1.orderGet ctx
        [w.db.nextOrderID env.now]).2 = .ok [c] := by
    intro h
    obtain ⟨e, c, he, hc, -⟩ := h.confirmed
    exact ⟨c, hI'.orderGet_ok_iff.2 ⟨by rw [hcache]; exact h.unmarked, e, he, hc⟩⟩
  rcases orderGet_cases hI'.keys ctx (w.db.nextOrderID env.now) with ⟨x, h⟩ | h | ⟨c, h⟩
  · simp only [h]
    refine ⟨fun ⟨_, h'⟩ => (by cases h'), fun hd => ?_⟩
    obtain ⟨c, hc⟩ := hfound hd
    rw [h] at hc
    cases hc
  · simp only [h]
    refine ⟨fun ⟨_, h'⟩ => (by cases h'), fun hd => ?_⟩
    obtain ⟨c, hc⟩ := hfound hd
    rw [h] at hc
    cases hc
  · simp only [h]
    rw [confirm_ok_iff]
    obtain ⟨hmark, e, he, hc⟩ := hI'.orderGet_ok_iff.1 h
    refine ⟨fun hconf => ⟨hacc, hcache ▸ hmark, e, c, he, hc, hconf⟩, fun hd => ?_⟩
    obtain ⟨e', c', he', hc', hconf⟩ := hd.confirmed
    rw [he, Option.some.injEq] at he'
    rw [← he', hc, Except.ok.injEq] at hc'
    rw [hc']
    exact hconf

/-- Checkout sends a transaction request for the whole cart, if it is not free and the steps before
go through. -/
theorem transact_mem_checkout {offs : List (Option Text)} :
    (∃ b, Call.transact offs b ∈ (w.checkout env ctx).calls) ↔
      env.productGet = .ok () ∧ ctx.cartItems ≠ [] ∧ (scan ctx.cartItems).freeOrder = false ∧
        offs = offerings ctx.cartItems ∧
        ∃ v, ctx.dbVisit = some v ∧ env.Validated ctx v ctx.cartItems := by
  rcases checkout_cases w env ctx with ⟨hno, e, he⟩ | ⟨⟨hne, hp⟩, v, hv, hco⟩
  · refine ⟨?_, fun h => absurd ⟨h.2.1, h.1⟩ hno⟩
    rintro ⟨b, h⟩
    rw [he] at h
    cases h
  rw [hco]
  rcases (scan ctx.cartItems).freeOrder with _ | _
  · have hcalls : (w.paidCheckout env ctx v ctx.cartItems).calls
        = (env.storefrontCheckout ctx v ctx.cartItems).1 := by
      unfold paidCheckout
      dsimp only
      split <;> rfl
    simp only [Bool.false_eq_true, if_false, catchIws_calls, hcalls, hp, hv, Option.some.injEq,
      true_and, exists_eq_left', ne_eq, hne, not_false_eq_true]
    rcases env.storefrontCheckout_cases ctx v ctx.cartItems with ⟨hval, r, hr⟩ | ⟨hval, e, hr⟩
    · simp [hr, hval]
    · simp [hr, hval]
  · simp only [if_true, Bool.true_eq_false, false_and, and_false, iff_false]
    rintro ⟨b, h⟩
    unfold freeCheckout at h
    split at h
    · cases h
    · simp at h

theorem checkout_ok_iff (hI : w.Inv) {offs : List (Option Text)}
    (h : Call.transact offs true ∈ (w.checkout env ctx).calls) :
    (∃ order, (w.checkout env ctx).result = .ok order) ↔ w.Completes env ctx := by
  obtain ⟨hp, hne, hfree, -⟩ := transact_mem_checkout.1 ⟨true, h⟩
  rcases checkout_cases w env ctx with ⟨hno, -⟩ | ⟨-, v, hv, hco⟩
  · exact absurd ⟨hne, hp⟩ hno
  rw [hco]
  simp only [hfree, Bool.false_eq_true, if_false, catchIws_ok_iff]
  unfold Completes
  simp only [hv, Option.some.injEq, exists_and_left, exists_eq_left', ← afterCharge_ok_iff hI]
  unfold paidCheckout
  rcases hr : (env.storefrontCheckout ctx v ctx.cartItems).2 with e | xml <;> simp [hr]

def VisitsKept (w w' : OrderWorld) : Prop :=
  w'.db.visits = w.db.visits ∧ w'.db.visitSequence = w.db.visitSequence

theorem VisitsKept.trans {w w' w'' : OrderWorld} (h : w.VisitsKept w') (h' : w'.VisitsKept w'') :
    w.VisitsKept w'' := ⟨h'.1.trans h.1, h'.2.trans h.2⟩

theorem createFromIwsOrder_visits (now : ℤ) (xml : OrderXml) (queryID : Option ℤ)
    (profileID : Option Text) :
    w.VisitsKept (w.createFromIwsOrder now ctx xml queryID profileID).1 := by
  unfold createFromIwsOrder Db.createOrder
  rcases h : w.db.spOrderCreate now ctx.siteID xml queryID profileID with e | ⟨id, db'⟩
  · exact ⟨rfl, rfl⟩
  · obtain ⟨-, -, rfl⟩ := Db.spOrderCreate_ok_iff.1 h
    exact ⟨rfl, rfl⟩

theorem getSubscriptions_visits : w.VisitsKept (w.getSubscriptions env ctx).1 := by
  unfold getSubscriptions
  dsimp only
  repeat' split
  all_goals first | exact ⟨rfl, rfl⟩ | exact createFromIwsOrder_visits ..

theorem confirm_visits (order : Order) : w.VisitsKept (w.confirm env ctx order).1 := by
  unfold confirm
  dsimp only
  repeat' split
  all_goals first | exact ⟨rfl, rfl⟩ | exact getSubscriptions_visits

theorem afterCharge_visits (xml : OrderXml) (queryID : ℤ) (profileID : Option Text) :
    w.VisitsKept (w.afterCharge env ctx xml queryID profileID).1 := by
  have hcreated : w.VisitsKept (w.createFromIwsOrder env.now ctx xml (some queryID) profileID).1 :=
    createFromIwsOrder_visits ..
  unfold afterCharge
  dsimp only
  repeat' split
  · exact hcreated
  · exact hcreated
  · exact hcreated
  · exact hcreated.trans (confirm_visits _)

theorem catchIws_visits (o : Outcome OrderWorld) :
    o.world.VisitsKept (catchIws env ctx o).world := by
  unfold catchIws
  repeat' split
  all_goals exact ⟨rfl, rfl⟩

theorem checkout_visits : w.VisitsKept (w.checkout env ctx).world := by
  rcases checkout_cases w env ctx with ⟨-, e, he⟩ | ⟨-, v, -, hco⟩
  · rw [he]
    exact ⟨rfl, rfl⟩
  rw [hco]
  split
  · unfold freeCheckout
    dsimp only
    split <;> exact ⟨rfl, rfl⟩
  · refine VisitsKept.trans ?_ (catchIws_visits _)
    unfold paidCheckout
    dsimp only
    split
    · exact ⟨rfl, rfl⟩
    · exact afterCharge_visits ..

end OrderWorld

namespace World

def cartOf (w : World) (g : Guid) : Option Cart :=
  match w.visitCache g.text with
  | some (.entity v) => v.cart
  | _ => none

/-- Nothing that is tested before the storefront is asked stops the checkout. -/
structure Ready (env : CheckoutEnv) (ctx : CallContext) : Prop where
  authorized : ctx.authorizedUserID ≠ 0
  paymentMethod : ∃ u, ctx.dbUser = some u ∧ u.hasValidPaymentMethod = true
  catalog : env.productGet = .ok ()
  validated : ∃ v, ctx.dbVisit = some v ∧ env.Validated ctx v ctx.cartItems

variable {w w' : World} {env : CheckoutEnv} {ctx : CallContext}

theorem cartCheckout_eq {u : UserRow} (ha : ctx.authorizedUserID ≠ 0) (hu : ctx.dbUser = some u)
    (hp : u.hasValidPaymentMethod = true) :
    w.cartCheckout env ctx =
      { world :=
          let w' : World := { w with toOrderWorld := (w.toOrderWorld.checkout env ctx).world }
          if (w.toOrderWorld.checkout env ctx).result.isOk then w'.cartUpdate ctx none else w'
        calls := (w.toOrderWorld.checkout env ctx).calls
        result := (w.toOrderWorld.checkout env ctx).result } := by
  unfold cartCheckout
  simp [ha, hu, hp]

theorem transact_mem_cartCheckout {offs : List (Option Text)} :
    (∃ b, Call.transact offs b ∈ (w.cartCheckout env ctx).calls) ↔
      Ready env ctx ∧ ctx.cartItems ≠ [] ∧ (scan ctx.cartItems).freeOrder = false ∧
        offs = offerings ctx.cartItems := by
  by_cases hpre : ctx.authorizedUserID ≠ 0 ∧ ∃ u, ctx.dbUser = some u ∧
      u.hasValidPaymentMethod = true
  · obtain ⟨ha, u, hu, hp⟩ := hpre
    rw [cartCheckout_eq ha hu hp]
    dsimp only
    rw [OrderWorld.transact_mem_checkout]
    exact ⟨fun ⟨hc, hne, hf, ho, hv⟩ => ⟨⟨ha, ⟨u, hu, hp⟩, hc, hv⟩, hne, hf, ho⟩,
      fun ⟨hr, hne, hf, ho⟩ => ⟨hr.catalog, hne, hf, ho, hr.validated⟩⟩
  · refine ⟨fun ⟨b, h⟩ => ?_, fun ⟨hr, _⟩ => absurd ⟨hr.authorized, hr.paymentMethod⟩ hpre⟩
    have hcalls : (w.cartCheckout env ctx).calls = [] := by
      unfold cartCheckout
      by_cases ha : ctx.authorizedUserID = 0
      · simp [ha]
      rcases hu : ctx.dbUser with _ | u
      · simp [ha]
      · have hp : u.hasValidPaymentMethod = false := by
          by_contra hp
          exact hpre ⟨ha, u, hu, by simpa using hp⟩
        simp [ha, hp]
    rw [hcalls] at h
    cases h

/-- After a request that was charged the cart is gone if everything went through, and else it is
still there. -/
theorem cartOf_cartCheckout (hI : w.toOrderWorld.Inv) {v : DBVisit} (hv : ctx.dbVisit = some v)
    (hw : w.visitCache v.visitGuid.text = some (.entity v)) {offs : List (Option Text)}
    (h : Call.transact offs true ∈ (w.cartCheckout env ctx).calls) :
    (w.toOrderWorld.Completes env ctx → (w.cartCheckout env ctx).world.cartOf v.visitGuid = none) ∧
      (¬ w.toOrderWorld.Completes env ctx →
        (w.cartCheckout env ctx).world.cartOf v.visitGuid = v.cart) := by
  obtain ⟨hr, -⟩ := transact_mem_cartCheckout.1 ⟨true, h⟩
  obtain ⟨u, hu, hp⟩ := hr.paymentMethod
  rw [cartCheckout_eq hr.authorized hu hp] at h ⊢
  dsimp only at h ⊢
  rw [← OrderWorld.checkout_ok_iff hI h]
  rcases (w.toOrderWorld.checkout env ctx).result with e | order
  · refine ⟨fun ⟨_, h'⟩ => (by cases h'), fun _ => ?_⟩
    simp [Except.isOk, Except.toBool, cartOf, hw]
  · refine ⟨fun _ => ?_, fun h' => absurd ⟨order, rfl⟩ h'⟩
    simp only [Except.isOk, Except.toBool, if_true, cartUpdate, hv, cartOf]
    have hset := visitSet_visitCache_self (w := { w with
      toOrderWorld := (w.toOrderWorld.checkout env ctx).world }) { v with cart := none }
    dsimp only at hset
    rw [hset]

theorem VisitInv.cartUpdate (hI : w.VisitInv) (ctx : CallContext) (cart : Option Cart) :
    (w.cartUpdate ctx cart).VisitInv := by
  unfold World.cartUpdate
  split
  · exact hI
  · exact hI.visitSet _

theorem cartCheckout_visits (w : World) (env : CheckoutEnv) (ctx : CallContext) :
    w.toOrderWorld.VisitsKept (w.cartCheckout env ctx).world.toOrderWorld ∧
      ((w.cartCheckout env ctx).world.visitCache = w.visitCache ∨
        (w.cartCheckout env ctx).world.visitCache = (w.cartUpdate ctx none).visitCache) := by
  have hset : ∀ w' : World, w'.visitCache = w.visitCache →
      (w'.cartUpdate ctx none).toOrderWorld = w'.toOrderWorld ∧
        (w'.cartUpdate ctx none).visitCache = (w.cartUpdate ctx none).visitCache := by
    intro w' hw'
    unfold World.cartUpdate
    rcases ctx.dbVisit with _ | v
    · exact ⟨rfl, hw'⟩
    · refine ⟨rfl, ?_⟩
      dsimp only
      rw [visitSet_visitCache, visitSet_visitCache, hw']
  unfold World.cartCheckout
  dsimp only
  split
  · exact ⟨⟨rfl, rfl⟩, .inl rfl⟩
  split
  · exact ⟨⟨rfl, rfl⟩, .inl rfl⟩
  split
  · exact ⟨⟨rfl, rfl⟩, .inl rfl⟩
  split
  · obtain ⟨h1, h2⟩ := hset { w with toOrderWorld := (w.toOrderWorld.checkout env ctx).world } rfl
    exact ⟨h1 ▸ OrderWorld.checkout_visits, .inr h2⟩
  · exact ⟨OrderWorld.checkout_visits, .inl rfl⟩

theorem VisitInv.cartCheckout (hI : w.VisitInv) : (w.cartCheckout env ctx).world.VisitInv := by
  obtain ⟨hkept, hcache⟩ := cartCheckout_visits w env ctx
  have hvisits : Sql.Unique (fun v : VisitRow => (v.siteID, v.id))
      (w.cartCheckout env ctx).world.db.visits := hkept.1 ▸ hI.visits
  have hI' := hI.cartUpdate ctx none
  rcases hcache with h | h
  · exact ⟨hvisits, by rw [h]; exact hI.guid, by rw [h]; exact hI.cart⟩
  · exact ⟨hvisits, by rw [h]; exact hI'.guid, by rw [h]; exact hI'.cart⟩

theorem sendAsync_cart (hI : w.VisitInv) {key : Text} {user : Option UserRow}
    (h : w.sendAsync (some key) user = (w', .ok ctx)) (hc : ctx.cart ≠ none) :
    ∃ v, ctx.dbVisit = some v ∧ key = v.visitGuid.text ∧ w.visitCache key = some (.entity v) ∧
      w' = w := by
  unfold sendAsync at h
  rcases hg : w.visitGet key with ⟨w₁, e | _ | v⟩
  · simp [hg, Except.map] at h
  · simp only [hg, Except.map, Prod.mk.injEq, Except.ok.injEq] at h
    rw [← h.2] at hc
    exact absurd rfl hc
  · simp only [hg, Except.map, Prod.mk.injEq, Except.ok.injEq] at h
    obtain ⟨rfl, rfl⟩ := h
    exact ⟨v, rfl, visitGet_cart hI hg hc⟩

/-- A visit whose card was charged is not charged again for the same items by the next checkout, the
cart being as the first one left it or lost with its cache entry, exactly if everything after the
charge went through, or the cart was lost, or the second request stops before the transaction. -/
theorem no_second_charge_iff {w₁ w₂ w₃ : World} {env₁ env₂ : CheckoutEnv} {key₁ key₂ : Text}
    {user₁ user₂ : Option UserRow} {ctx₁ ctx₂ : CallContext} {g : Guid}
    (hI : w.VisitInv) (hO : w.toOrderWorld.Inv)
    (h₁ : w.sendAsync (some key₁) user₁ = (w₁, .ok ctx₁)) (hg₁ : Guid.parse key₁ = some g)
    (hcharged : ∃ offs, Call.transact offs true ∈ (w₁.cartCheckout env₁ ctx₁).calls)
    (hI₂ : w₂.VisitInv)
    (hkept : w₂.cartOf g = (w₁.cartCheckout env₁ ctx₁).world.cartOf g ∨ w₂.cartOf g = none)
    (h₂ : w₂.sendAsync (some key₂) user₂ = (w₃, .ok ctx₂)) (hg₂ : Guid.parse key₂ = some g) :
    (∀ offs, Call.transact offs true ∈ (w₁.cartCheckout env₁ ctx₁).calls →
        ∀ b, Call.transact offs b ∉ (w₃.cartCheckout env₂ ctx₂).calls) ↔
      w₁.toOrderWorld.Completes env₁ ctx₁ ∨ ctx₂.cart ≠ ctx₁.cart ∨ ¬ Ready env₂ ctx₂ := by
  obtain ⟨offs, hcharged⟩ := hcharged
  obtain ⟨-, hne, hfree, hoffs⟩ := transact_mem_cartCheckout.1 ⟨true, hcharged⟩
  have hcart : ctx₁.cart ≠ none := by
    intro hn
    simp [CallContext.cartItems, hn] at hne
  obtain ⟨v, hv, rfl, hentry, rfl⟩ := sendAsync_cart hI h₁ hcart
  rw [Guid.parse_text, Option.some.injEq] at hg₁
  subst hg₁
  have hv' : ctx₁.cart = v.cart := by simp [CallContext.cart, hv]
  have hafter := cartOf_cartCheckout hO hv hentry hcharged
  have hsecond : ctx₂.cart ≠ none → ctx₂.cart = w₂.cartOf v.visitGuid := by
    intro hc
    obtain ⟨v₂, hv₂, rfl, hentry₂, -⟩ := sendAsync_cart hI₂ h₂ hc
    rw [Guid.parse_text, Option.some.injEq] at hg₂
    rw [← hg₂, cartOf, hentry₂]
    simp [CallContext.cart, hv₂]
  have hnone : ctx₂.cart = none → ∀ offs' b,
      Call.transact offs' b ∉ (w₃.cartCheckout env₂ ctx₂).calls := by
    intro hn offs' b hm
    obtain ⟨-, hne₂, -⟩ := transact_mem_cartCheckout.1 ⟨b, hm⟩
    simp [CallContext.cartItems, hn] at hne₂
  refine ⟨fun h => ?_, fun h offs' hm => ?_⟩
  · by_contra hcon
    simp only [not_or, not_not] at hcon
    obtain ⟨-, hsame, hready⟩ := hcon
    have hitems : ctx₂.cartItems = ctx₁.cartItems := by simp only [CallContext.cartItems, hsame]
    have hsent : ∃ b, Call.transact offs b ∈ (w₃.cartCheckout env₂ ctx₂).calls := by
      rw [transact_mem_cartCheckout, hitems]
      exact ⟨hready, hne, hfree, hoffs⟩
    obtain ⟨b, hb⟩ := hsent
    exact h offs hcharged b hb
  · rcases h with hcomp | hdiff | hready
    · refine hnone ?_ offs'
      by_contra hc
      rw [hafter.1 hcomp, or_self] at hkept
      exact hc ((hsecond hc).trans hkept)
    · refine hnone ?_ offs'
      by_contra hc
      have hc' := hsecond hc
      rcases hkept with hk | hk
      · by_cases hcomp : w₁.toOrderWorld.Completes env₁ ctx₁
        · exact hc (hc'.trans (hk.trans (hafter.1 hcomp)))
        · exact hdiff (hc'.trans (hk.trans ((hafter.2 hcomp).trans hv'.symm)))
      · exact hc (hc'.trans hk)
    · exact fun b hb => hready (transact_mem_cartCheckout.1 ⟨b, hb⟩).1

end World

/-- The storefront takes the order for the product of external id 7; the receipt is sent or not. -/
def paying (receipt : Except Exn Unit) : CheckoutEnv where
  subscriptionItemDebit := fun _ _ _ => .error .sql
  paymentInformation := fun _ _ => .ok (some [{ cardId := 1, active := 1 }])
  validate := fun _ _ => .ok { content := [] }
  transact := fun _ _ _ => .ok { content := oneItemXml }
  sendReceipt := fun _ => receipt

def paidCart : Cart := { items := some [{ offerToken := some "OFFER".toList }] }

def shopper : UserRow where
  siteID := 1
  id := 8
  userGuid := ⟨"7c9e6679-7425-40de-944b-e07fc1f90ae7".toList, Guid.shape_second⟩
  hasValidPaymentMethod := true

def shop : World :=
  ({ noOrders.toOrderWorld with visitCache := fun _ => none } : World).visitSet
    (visitOf 8 (some paidCart))

def shopContext (cart : Option Cart) : CallContext :=
  CallContext.ofVisit (some shopper) (some (visitOf 8 cart))

theorem shop_visitInv : shop.VisitInv :=
  World.VisitInv.visitSet ⟨by decide, fun _ _ h => (by cases h), fun _ _ h => (by cases h)⟩ _

theorem shop_sendAsync : shop.sendAsync (some (visitOf 8 none).visitGuid.text) (some shopper)
    = (shop, .ok (shopContext (some paidCart))) := by
  have h := World.visitGet_of_entity (w := shop) (World.visitSet_visitCache_self _)
  simp only [World.sendAsync]
  exact congrArg (fun r => (r.1, r.2.map (CallContext.ofVisit (some shopper)))) h

/-- The receipt is sent and the cart cleared: a second checkout does not charge. -/
theorem shop_charged_once :
    let r := shop.cartCheckout (paying (.ok ())) (shopContext (some paidCart))
    ∀ offs, Call.transact offs true ∈ r.calls → ∀ b, Call.transact offs b ∉
      (r.world.cartCheckout (paying (.ok ())) (shopContext none)).calls := by
  intro r
  have hcalls : r.calls = [.transact [some "OFFER".toList] true] := by decide
  have hcache : r.world.visitCache (visitOf 8 none).visitGuid.text
      = some (.entity (visitOf 8 none)) := by decide
  have h₂ : r.world.sendAsync (some (visitOf 8 none).visitGuid.text) (some shopper)
      = (r.world, .ok (shopContext none)) :=
    congrArg (fun r => (r.1, r.2.map (CallContext.ofVisit (some shopper))))
      (World.visitGet_of_entity hcache)
  refine (World.no_second_charge_iff (g := (visitOf 8 none).visitGuid) shop_visitInv noOrders_inv
    shop_sendAsync (Guid.parse_text _) ⟨_, hcalls ▸ List.mem_singleton_self _⟩
    shop_visitInv.cartCheckout (.inl rfl) h₂ (Guid.parse_text _)).2 (.inl ?_)
  refine ⟨visitOf 8 (some paidCart), oneItemXml, rfl, rfl, ?_, by decide, ?_⟩
  · unfold Db.Rejects
    decide
  · exact ⟨_, _, rfl, rfl, rfl, fun h => absurd h (by decide)⟩

/-- The receipt could not be sent: the next checkout sends the same transaction again. -/
theorem shop_charged_twice :
    let r := shop.cartCheckout (paying (.error .web)) (shopContext (some paidCart))
    shop.VisitInv ∧ shop.toOrderWorld.Inv ∧
    shop.sendAsync (some (visitOf 8 none).visitGuid.text) (some shopper)
      = (shop, .ok (shopContext (some paidCart))) ∧
    r.calls = [.transact [some "OFFER".toList] true] ∧ r.result = .error .web ∧
    r.world.db.orders.map (·.id) = [1] ∧
    (r.world.sendAsync (some (visitOf 8 none).visitGuid.text) (some shopper)).2
      = .ok (shopContext (some paidCart)) ∧
    Call.transact [some "OFFER".toList] true ∈
      (r.world.cartCheckout (paying (.ok ())) (shopContext (some paidCart))).calls :=
  ⟨shop_visitInv, noOrders_inv, shop_sendAsync, by decide, by decide, by decide, by decide,
    by decide⟩

end AciX
