import AciX.Cart.Checkout

/-!
# Orders and charges

Carts are posted and checked out in any order. An order enters the table only in a checkout whose
own cart the storefront has charged (`orders_charged`): a free order adds none, and the orders that
come with a new subscription are imported after the charge.
-/

namespace AciX

inductive CartRequest where
  | update (ctx : CallContext) (cart : Option Cart)
  | checkout (env : CheckoutEnv) (ctx : CallContext)

namespace OrderWorld

variable {w w' : OrderWorld} {env : CheckoutEnv} {ctx : CallContext} {o : OrderRow}

theorem mem_createFromIwsOrder {now : ℤ} {xml : OrderXml} {queryID : Option ℤ}
    {profileID : Option Text}
    (ho : o ∈ (w.createFromIwsOrder now ctx xml queryID profileID).1.db.orders) :
    o ∈ w.db.orders ∨ o.siteID = ctx.siteID := by
  unfold createFromIwsOrder Db.createOrder at ho
  rcases hc : w.db.spOrderCreate now ctx.siteID xml queryID profileID with e | ⟨id, db'⟩
  · rw [hc] at ho
    exact .inl ho
  · rw [hc] at ho
    dsimp only at ho
    rw [(Db.spOrderCreate_orders hc).2] at ho
    rcases List.mem_append.1 ho with ho | ho
    · exact .inl ho
    · have hnew := Sql.mem_of_mem_distinctOn ho
      simp only [List.mem_flatMap, List.mem_map] at hnew
      obtain ⟨t, -, x, -, rfl⟩ := hnew
      exact .inr rfl

theorem mem_getSubscriptions (ho : o ∈ (w.getSubscriptions env ctx).1.db.orders) :
    o ∈ w.db.orders ∨ o.siteID = ctx.siteID := by
  unfold getSubscriptions at ho
  dsimp only at ho
  repeat' split at ho
  · exact .inl ho
  · exact .inl ho
  · exact .inl ho
  all_goals exact mem_createFromIwsOrder ho

theorem mem_afterCharge {xml : OrderXml} {queryID : ℤ} {profileID : Option Text}
    (ho : o ∈ (w.afterCharge env ctx xml queryID profileID).1.db.orders) :
    o ∈ w.db.orders ∨ o.siteID = ctx.siteID := by
  unfold afterCharge confirm at ho
  dsimp only at ho
  repeat' split at ho
  all_goals try exact mem_createFromIwsOrder ho
  rcases mem_getSubscriptions ho with ho | hs
  · exact mem_createFromIwsOrder ho
  · exact .inr hs

theorem catchIws_orders (r : Outcome OrderWorld) :
    (catchIws env ctx r).world.db.orders = r.world.db.orders := by
  unfold catchIws
  repeat' split
  all_goals rfl

theorem mem_checkout (ho : o ∈ (w.checkout env ctx).world.db.orders) : o ∈ w.db.orders ∨
    o.siteID = ctx.siteID ∧
      .transact (offerings ctx.cartItems) true ∈ (w.checkout env ctx).calls := by
  rcases checkout_cases w env ctx with ⟨-, e, he⟩ | ⟨-, v, -, hco⟩
  · rw [he] at ho
    exact .inl ho
  · rw [hco] at ho ⊢
    split_ifs at ho ⊢ with hfree
    · unfold freeCheckout at ho
      split at ho
      · exact .inl ho
      · exact .inl ho
    · rw [catchIws_orders] at ho
      rw [catchIws_calls]
      unfold paidCheckout at ho ⊢
      rcases env.storefrontCheckout_cases ctx v ctx.cartItems with ⟨-, e | xml, hr⟩ | ⟨-, e, hr⟩
      · simp only [hr] at ho
        exact .inl ho
      · simp only [hr] at ho ⊢
        exact (mem_afterCharge ho).imp id fun hs => ⟨hs, List.mem_singleton_self _⟩
      · simp only [hr] at ho
        exact .inl ho

end OrderWorld

namespace World

def cartRequest (w : World) : CartRequest → World
  | .update ctx cart => w.cartUpdate ctx cart
  | .checkout env ctx => (w.cartCheckout env ctx).world

theorem cartUpdate_db (w : World) (ctx : CallContext) (cart : Option Cart) :
    (w.cartUpdate ctx cart).db = w.db := by
  unfold cartUpdate
  split <;> rfl

theorem mem_cartCheckout {w : World} {env : CheckoutEnv} {ctx : CallContext} {o : OrderRow}
    (ho : o ∈ (w.cartCheckout env ctx).world.db.orders) : o ∈ w.db.orders ∨
      o.siteID = ctx.siteID ∧
        .transact (offerings ctx.cartItems) true ∈ (w.cartCheckout env ctx).calls := by
  unfold cartCheckout at ho ⊢
  rcases hu : ctx.dbUser with _ | u <;> simp only [hu] at ho ⊢
  · split_ifs at ho <;> exact .inl ho
  split_ifs at ho ⊢
  · exact .inl ho
  · exact .inl ho
  · rw [cartUpdate_db] at ho
    exact OrderWorld.mem_checkout ho
  · exact OrderWorld.mem_checkout ho

/-- One of the requests is a checkout on the site of the order that charged its cart. -/
def Charged (w : World) (requests : List CartRequest) (o : OrderRow) : Prop :=
  ∃ before env ctx after, requests = before ++ .checkout env ctx :: after ∧
    o.siteID = ctx.siteID ∧ .transact (offerings ctx.cartItems) true ∈
      ((run cartRequest w before).cartCheckout env ctx).calls

theorem orders_charged (w : World) (requests : List CartRequest) {o : OrderRow}
    (ho : o ∈ (run cartRequest w requests).db.orders) :
    o ∈ w.db.orders ∨ w.Charged requests o := by
  induction requests generalizing w with
  | nil => exact .inl ho
  | cons r requests ih =>
    rcases ih _ ho with ho | ⟨before, env, ctx, after, rfl, hs, hcall⟩
    · cases r with
      | update ctx cart =>
        rw [cartRequest, cartUpdate_db] at ho
        exact .inl ho
      | checkout env ctx =>
        exact (mem_cartCheckout ho).imp id fun h => ⟨[], env, ctx, requests, rfl, h⟩
    · exact .inr ⟨r :: before, env, ctx, after, rfl, hs, hcall⟩

end World

theorem shop_orders_charged :
    let requests := [.checkout (paying (.ok ())) (shopContext (some paidCart))]
    let o := shop.db.orderRow 0 1 oneItemXml
    o ∈ (run World.cartRequest shop requests).db.orders ∧
      (o ∈ shop.db.orders ∨ shop.Charged requests o) :=
  have ho := by decide
  ⟨ho, World.orders_charged _ _ ho⟩

end AciX
