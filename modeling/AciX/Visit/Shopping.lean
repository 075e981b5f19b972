import AciX.Visit.Session

/-!
# What the visit keeps in the cache only

The cart and the current query of a visit live in the cached visit only. `User.Authenticate` carries
the cart over and forgets the query, a visit that is used again comes without either, and a request
that spells the guid in another way finds neither. `shopping_survives_iff` says in which runs the
requests see what was last set.
-/

namespace AciX

open EntityCache

structure Shopping where
  cart : Option Cart := none
  currentQueryID : ℤ := 0
  currentQueryState : Option Text := none
  deriving DecidableEq

def DBVisit.shopping (v : DBVisit) : Shopping where
  cart := v.cart
  currentQueryID := v.currentQueryID
  currentQueryState := v.currentQueryState

namespace World

section Model

variable (w : World) (g : Guid)

def shopping : Shopping :=
  match w.visitCache g.text with
  | some (.entity v) => v.shopping
  | _ => {}

def lastSet (ctx : CallContext) (s : Shopping) : Action → Shopping
  | .cartUpdate cart => { s with cart := cart }
  | .cartCheckout env =>
    if (w.cartCheckout env ctx).result.isOk then { s with cart := none } else s
  | .setQuery state queryID =>
    { s with currentQueryID := queryID, currentQueryState := state }
  | _ => s

def lastSetBy (s : Shopping) : Event → Shopping
  | .request key user a =>
    match (w.visitGet key).2 with
    | .ok (some v) =>
      if v.visitGuid = g then (w.visitGet key).1.lastSet (CallContext.ofVisit user (some v)) s a
      else s
    | _ => s
  | _ => s

def Sees (s : Shopping) : Event → Prop
  | .request key _ _ =>
    ∀ v, (w.visitGet key).2 = .ok (some v) → v.visitGuid = g → v.shopping = s
  | _ => True

/-- The step evicts nothing and creates no visit with a token in use. -/
def Lasting : Event → Prop
  | .request .. => True
  | .createVisit a => w.Room (.createVisit a) ∧ ∀ r ∈ w.db.visits, r.visitGuid ≠ a.newGuid
  | .evict _ => False

/-- The event keeps the shopping state of `g`: a request spells the guid as `ToString` does, unless
there is nothing to find; nobody is authenticated while there is a current query; and the visit is
not used again while there is a cart or a query. -/
def KeepsShopping : Event → Prop
  | .request key user a =>
    ∀ v, (w.visitGet key).2 = .ok (some v) → v.visitGuid = g →
      (key = g.text ∨ w.shopping g = {}) ∧
        ∀ s, a = .authenticate s → (w.request key user a).2 = true →
          (w.shopping g).currentQueryID = 0 ∧ (w.shopping g).currentQueryState = none
  | .createVisit a =>
    ∀ e, w.db.reusedVisit a = some e → e.visitGuid = g → w.shopping g = {}
  | .evict _ => True

structure ShoppingInv : Prop extends w.SessionInv where
  plain : ∀ k v, w.visitCache k = some (.entity v) → v.shopping ≠ {} → k = v.visitGuid.text

end Model

/-- Along the run every request for the visit `g` sees what was last set for it, `s` at the
start, and so does one that follows the run. -/
def Survives (g : Guid) : World → Shopping → List Event → Prop
  | w, s, [] => w.shopping g = s
  | w, s, e :: es => w.Sees g s e ∧ Survives g (w.step e) (w.lastSetBy g s e) es

variable {w w' : World} {ctx : CallContext} {v : DBVisit} {g : Guid}

theorem shopping_of_entity (h : w.visitCache g.text = some (.entity v)) :
    w.shopping g = v.shopping := by
  unfold shopping
  rw [h]

theorem shopping_of_none (h : ∀ v, w.visitCache g.text ≠ some (.entity v)) : w.shopping g = {} := by
  unfold shopping
  split
  · rename_i v hv
    exact absurd hv (h v)
  · rfl

theorem shopping_congr (h : w'.visitCache g.text = w.visitCache g.text) :
    w'.shopping g = w.shopping g := by
  unfold shopping
  rw [h]

theorem shopping_put {k : Text} (h : w'.visitCache = put w.visitCache k (.entity v)) :
    w'.shopping g = if k = g.text then v.shopping else w.shopping g := by
  split_ifs with hk
  · exact shopping_of_entity (by rw [h, hk, put_self])
  · exact shopping_congr (by rw [h, put_of_ne fun he => hk he.symm])

theorem shopping_of_spVisitGet {db : Db} {siteID : Option ℕ} {visitID : Option ℤ}
    (h : v ∈ db.spVisitGet siteID visitID) : v.shopping = {} := by
  obtain ⟨_, -, rfl⟩ := List.mem_map.1 h
  rfl

theorem visitGet_read {key : Text} (hn : w.visitCache key = none)
    (h : (w.visitGet key).2 = .ok (some v)) : v.shopping = {} := by
  unfold visitGet at h
  rcases hg : Guid.parse key with _ | g
  · simp [hn, hg] at h
  · rcases ht : (w.db.spVisitGetByToken g).take 1 with _ | ⟨v', l⟩
    · simp [hn, hg, EntityCache.get, Db.visitCache, ht] at h
    · obtain rfl : v' = v := by simpa [hn, hg, EntityCache.get, Db.visitCache, ht] using h
      exact shopping_of_spVisitGet (List.mem_of_mem_take (ht ▸ List.mem_cons_self))

theorem visitGet_shopping (hI : w.SessionInv) (key : Text) :
    (w.visitGet key).1.shopping g = w.shopping g := by
  rcases visitGet_cases hI.toVisitInv key with ⟨hw, -⟩ | ⟨hn, hw⟩ | ⟨hn, v, -, -, hw⟩
  · rw [hw]
  · by_cases hk : g.text = key
    · rw [shopping_of_none (w := w) (by simp [hk, hn])]
      exact shopping_of_none (by simp [hw, hk, put_self])
    · exact shopping_congr (by rw [hw]; exact put_of_ne hk ..)
  · have hv : v.shopping = {} := visitGet_read hn (by rw [hw])
    rw [shopping_put (w := w) (v := v) (k := key) (by rw [hw]), hv]
    split_ifs with hk
    · exact (shopping_of_none (by simp [← hk, hn])).symm
    · rfl

theorem found_shopping (hI : w.ShoppingInv) {key : Text} (h : (w.visitGet key).2 = .ok (some v)) :
    v.shopping = if key = v.visitGuid.text then w.shopping v.visitGuid else {} := by
  rcases he : w.visitCache key with _ | ⟨v'⟩ | _
  · rw [visitGet_read he h]
    split_ifs with hk
    · exact (shopping_of_none (by simp [← hk, he])).symm
    · rfl
  · rw [visitGet_of_entity he] at h
    obtain rfl : v' = v := by simpa using h
    split_ifs with hk
    · exact (shopping_of_entity (hk ▸ he)).symm
    · by_contra hs
      exact hk (hI.plain key v' he hs)
  · simp [visitGet, he, EntityCache.get] at h

theorem signInVisit_cases (w : World) (ctx : CallContext) (s : SignIn)
    (t : ℤ × Option Text × Option Text) (u : UserRow) (f : DBVisit → DBVisit) :
    ((w.signInVisit ctx s t u f).2.isOk = false ∧
      (w.signInVisit ctx s t u f).1.visitCache = w.visitCache) ∨
    ((w.signInVisit ctx s t u f).2.isOk = true ∧ ∃ v',
      ((w.signInVisit ctx s t u f).1.db.spVisitGet (some ctx.siteID) (some ctx.visitID)).head? =
        some v' ∧
      (w.signInVisit ctx s t u f).1.visitCache =
        put w.visitCache (f v').visitGuid.text (.entity (f v'))) := by
  unfold signInVisit
  rcases s.visitUpdate with e | _
  · exact .inl ⟨rfl, rfl⟩
  dsimp only
  split
  · exact .inl ⟨rfl, rfl⟩
  · rename_i v' hv'
    exact .inr ⟨rfl, v', hv', rfl⟩

theorem authenticate_cases (w : World) (ctx : CallContext) (v : DBVisit) (s : SignIn) :
    ((w.authenticate ctx v s).2.isOk = false ∧
      (w.authenticate ctx v s).1.visitCache = w.visitCache) ∨
    ((w.authenticate ctx v s).2.isOk = true ∧ ∃ v',
      ((w.authenticate ctx v s).1.db.spVisitGet (some ctx.siteID) (some ctx.visitID)).head? =
        some v' ∧
      (w.authenticate ctx v s).1.visitCache =
        put w.visitCache v'.visitGuid.text (.entity { v' with cart := v.cart })) := by
  unfold authenticate
  rcases s.tokens with e | t
  · exact .inl ⟨rfl, rfl⟩
  dsimp only
  split_ifs
  · rcases (w.db.spUserUpdate ctx s t.1 t.2.2 t.2.1).2 with _ | u
    · exact .inl ⟨rfl, rfl⟩
    · exact signInVisit_cases ..
  · rcases w.db.spUserCreate ctx s t.1 t.2.2 t.2.1 with e | ⟨db, u⟩
    · exact .inl ⟨rfl, rfl⟩
    · exact signInVisit_cases ..

theorem userCreate_cases (w : World) (ctx : CallContext) (v : DBVisit) (s : SignIn) :
    ((w.userCreate ctx v s).2.isOk = false ∧ (w.userCreate ctx v s).1.visitCache = w.visitCache) ∨
    ((w.userCreate ctx v s).2.isOk = true ∧ ∃ v',
      ((w.userCreate ctx v s).1.db.spVisitGet (some ctx.siteID) (some ctx.visitID)).head? =
        some v' ∧
      (w.userCreate ctx v s).1.visitCache = put w.visitCache v.visitGuid.text (.entity
        { v with
          iwsUserID := v'.iwsUserID
          iwsUserToken := v'.iwsUserToken
          iwsUserTokenExpiry := v'.iwsUserTokenExpiry
          storefrontUserToken := v'.storefrontUserToken
          userGuid := v'.userGuid
          userID := v'.userID })) := by
  unfold userCreate
  rcases s.tokens with e | t
  · exact .inl ⟨rfl, rfl⟩
  dsimp only
  rcases w.db.spUserCreate ctx s s.externalID t.2.2 t.2.1 with e | ⟨db, u⟩
  · exact .inl ⟨rfl, rfl⟩
  · exact signInVisit_cases ..

theorem updatePassword_cases (w : World) (ctx : CallContext) (v : DBVisit) (p : PasswordChange) :
    (w.updatePassword ctx v p).1.visitCache = w.visitCache ∨
      ∃ v' : DBVisit, (w.updatePassword ctx v p).1.visitCache =
          put w.visitCache v.visitGuid.text (.entity v') ∧
        v'.visitGuid = v.visitGuid ∧ v'.shopping = v.shopping := by
  unfold updatePassword
  rcases p.storefrontUserToken with e | storefrontUserToken
  · exact .inl rfl
  dsimp only
  split
  · exact .inl rfl
  · exact .inl rfl
  rcases p.iwsUserToken with e | iwsUserToken
  · exact .inl rfl
  dsimp only
  split
  · exact .inl rfl
  · exact .inr ⟨_, rfl, rfl, rfl⟩

theorem cartCheckout_cases (w : World) (env : CheckoutEnv) (hv : ctx.dbVisit = some v) :
    ((w.cartCheckout env ctx).result.isOk = false ∧
      (w.cartCheckout env ctx).world.visitCache = w.visitCache) ∨
    ((w.cartCheckout env ctx).result.isOk = true ∧ (w.cartCheckout env ctx).world.visitCache =
      put w.visitCache v.visitGuid.text (.entity { v with cart := none })) := by
  unfold cartCheckout
  dsimp only
  split
  · exact .inl ⟨rfl, rfl⟩
  split
  · exact .inl ⟨rfl, rfl⟩
  split
  · exact .inl ⟨rfl, rfl⟩
  split
  · rename_i hok
    refine .inr ⟨hok, ?_⟩
    simp only [cartUpdate, hv]
    rfl
  · rename_i hok
    exact .inl ⟨by simpa using hok, rfl⟩

/-- What an action for the visit `v` does to the entries: nothing, and then it sets nothing; or it
writes the visit with what it sets; or it authenticates and writes the row with the cart. -/
inductive Writes (w : World) (ctx : CallContext) (v : DBVisit) (a : Action) : Prop where
  | nothing (hauth : ∀ s, a = .authenticate s → (w.act ctx v a).2 = false)
      (hset : ∀ s, w.lastSet ctx s a = s) (hc : (w.act ctx v a).1.visitCache = w.visitCache)
  | visit (hauth : ∀ s, a ≠ .authenticate s) (v' : DBVisit)
      (hc : (w.act ctx v a).1.visitCache =
        put w.visitCache v.visitGuid.text (.entity v'))
      (hg : v'.visitGuid = v.visitGuid) (hs : v'.shopping = w.lastSet ctx v.shopping a)
  | authenticated (s : SignIn) (ha : a = .authenticate s) (hok : (w.act ctx v a).2 = true)
      (v' : DBVisit)
      (hr : ((w.act ctx v a).1.db.spVisitGet (some ctx.siteID) (some ctx.visitID)).head? = some v')
      (hc : (w.act ctx v a).1.visitCache =
        put w.visitCache v'.visitGuid.text (.entity { v' with cart := v.cart }))

theorem act_writes (hv : ctx.dbVisit = some v) (a : Action) : Writes w ctx v a := by
  cases a with
  | read => exact .nothing (fun _ h => by cases h) (fun _ => rfl) rfl
  | cartUpdate cart =>
    refine .visit (fun _ h => by cases h) { v with cart := cart } ?_ rfl rfl
    simp only [act, cartUpdate, hv]
    rfl
  | cartCheckout env =>
    rcases cartCheckout_cases w env hv with ⟨hno, hc⟩ | ⟨hok, hc⟩
    · exact .nothing (fun _ h => by cases h) (fun _ => by simp [lastSet, hno]) hc
    · refine .visit (fun _ h => by cases h) { v with cart := none } hc rfl ?_
      simp only [lastSet, hok, if_true]
      rfl
  | setQuery state queryID =>
    exact .visit (fun _ h => by cases h) _ rfl rfl rfl
  | logout => exact .visit (fun _ h => by cases h) _ rfl rfl rfl
  | authenticate s =>
    rcases authenticate_cases w ctx v s with ⟨hno, hc⟩ | ⟨hok, v', hr, hc⟩
    · exact .nothing (fun _ _ => hno) (fun _ => rfl) hc
    · exact .authenticated s rfl hok v' hr hc
  | create s =>
    rcases userCreate_cases w ctx v s with ⟨-, hc⟩ | ⟨-, v', -, hc⟩
    · exact .nothing (fun _ h => by cases h) (fun _ => rfl) hc
    · exact .visit (fun _ h => by cases h) _ hc rfl rfl
  | updatePassword p =>
    rcases updatePassword_cases w ctx v p with hc | ⟨v', hc, hg, hs⟩
    · exact .nothing (fun _ h => by cases h) (fun _ => rfl) hc
    · exact .visit (fun _ h => by cases h) v' hc hg hs

section Steps

variable {key : Text} (user : Option UserRow) (a : Action)

theorem request_of_found (h : (w.visitGet key).2 = .ok (some v)) (user : Option UserRow)
    (a : Action) : w.request key user a =
      (w.visitGet key).1.act (CallContext.ofVisit user (some v)) v a := by
  simp [request, sendAsync, h, Except.map, CallContext.ofVisit]

theorem request_of_not_found (h : ∀ v, (w.visitGet key).2 ≠ .ok (some v)) (user : Option UserRow)
    (a : Action) : w.request key user a = ((w.visitGet key).1, false) := by
  rcases hg : (w.visitGet key).2 with e | _ | v
  · simp [request, sendAsync, hg, Except.map]
  · simp [request, sendAsync, hg, Except.map, CallContext.ofVisit]
  · exact absurd hg (h v)

/-- After a request for the visit `v`: the entries are those before it, or its entry has what the
request set, or the request authenticated and only the cart is left. -/
theorem request_shopping (hI : w.ShoppingInv) (h : (w.visitGet key).2 = .ok (some v))
    (user : Option UserRow) (a : Action) :
    ((∀ s, a = .authenticate s → (w.request key user a).2 = false) ∧
      (w.request key user a).1.visitCache = (w.visitGet key).1.visitCache ∧
      ∀ s, (w.visitGet key).1.lastSet (CallContext.ofVisit user (some v)) s a = s) ∨
    ∃ v', v'.visitGuid = v.visitGuid ∧ (w.request key user a).1.visitCache =
        put (w.visitGet key).1.visitCache v.visitGuid.text (.entity v') ∧
      (((∀ s, a ≠ .authenticate s) ∧ v'.shopping =
          (w.visitGet key).1.lastSet (CallContext.ofVisit user (some v)) v.shopping a) ∨
        (∃ s, a = .authenticate s) ∧ (w.request key user a).2 = true ∧
          v'.shopping = { cart := v.cart }) := by
  have hI₁ := hI.toSessionInv.visitGet key
  have hentry : ∃ k, (w.visitGet key).1.visitCache k = some (.entity v) :=
    ⟨key, (visitGet_found hI.toSessionInv h).1⟩
  rw [request_of_found h]
  have hacts : Acts v _ _ ((w.visitGet key).1.act (CallContext.ofVisit user (some v)) v a).1 :=
    acts_act hI₁ hentry rfl rfl rfl a
  have hwrites : Writes (w.visitGet key).1 (CallContext.ofVisit user (some v)) v a :=
    act_writes rfl a
  cases hwrites with
  | nothing hauth hset hc => exact .inl ⟨hauth, hc, hset⟩
  | visit hauth v' hc hg hs => exact .inr ⟨v', hg, hc, .inl ⟨hauth, hs⟩⟩
  | authenticated s ha hok v' hr hc =>
    obtain ⟨hg, -, -⟩ := spVisitGet_same hI₁ hentry (by rfl) (by rfl) hacts.db hr
    refine .inr ⟨{ v' with cart := v.cart }, hg, hg ▸ hc, .inr ⟨⟨s, ha⟩, hok, ?_⟩⟩
    have hv' := shopping_of_spVisitGet (List.mem_of_head? hr)
    simp only [DBVisit.shopping, Shopping.mk.injEq] at hv'
    simp only [DBVisit.shopping, hv'.2]

theorem request_plain (hI : w.ShoppingInv) (key : Text) (user : Option UserRow) (a : Action)
    (k : Text) (v₁ : DBVisit) (hk : (w.request key user a).1.visitCache k = some (.entity v₁))
    (hs : v₁.shopping ≠ {}) : k = v₁.visitGuid.text := by
  have hget : ∀ v₁, (w.visitGet key).1.visitCache k = some (.entity v₁) → v₁.shopping ≠ {} →
      k = v₁.visitGuid.text := by
    intro v₁ hk hs
    rcases visitGet_cases hI.toVisitInv key with ⟨hw, -⟩ | ⟨-, hw⟩ | ⟨hn, v, -, -, hw⟩ <;>
      rw [hw] at hk
    · exact hI.plain k v₁ hk hs
    · rcases put_cases hk with ⟨-, hv₁⟩ | hk
      · cases hv₁
      · exact hI.plain k v₁ hk hs
    · rcases put_cases hk with ⟨-, hv₁⟩ | hk
      · cases hv₁
        exact absurd (visitGet_read hn (by rw [hw])) hs
      · exact hI.plain k v₁ hk hs
  by_cases hv : ∃ v, (w.visitGet key).2 = .ok (some v)
  · obtain ⟨v, hv⟩ := hv
    rcases request_shopping hI hv user a with ⟨-, hc, -⟩ | ⟨v', hg, hc, -⟩ <;> rw [hc] at hk
    · exact hget v₁ hk hs
    · rcases put_cases hk with ⟨rfl, hv₁⟩ | hk
      · cases hv₁
        rw [hg]
      · exact hget v₁ hk hs
  · rw [request_of_not_found fun v h => hv ⟨v, h⟩] at hk
    exact hget v₁ hk hs

theorem step_shoppingInv (hI : w.ShoppingInv) (e : Event) (he : w.Lasting e) :
    (w.step e).ShoppingInv := by
  cases e with
  | request key user a =>
    exact ⟨step_inv hI.toSessionInv (.request key user a) trivial, request_plain hI key user a⟩
  | createVisit a =>
    refine ⟨step_inv hI.toSessionInv (.createVisit a) he.1, fun k v hk hs => ?_⟩
    rcases put_cases hk with ⟨rfl, hv⟩ | hk
    · cases hv
      rfl
    · exact hI.plain k v hk hs
  | evict key => exact he.elim

theorem request_other (hI : w.ShoppingInv)
    (h : ∀ v, (w.visitGet key).2 = .ok (some v) → v.visitGuid ≠ g) :
    (w.request key user a).1.shopping g = w.shopping g ∧
      ∀ s, w.lastSetBy g s (.request key user a) = s := by
  by_cases hv : ∃ v, (w.visitGet key).2 = .ok (some v)
  · obtain ⟨v, hv⟩ := hv
    have hne : ¬ v.visitGuid.text = g.text := fun he => h v hv (Guid.text_injective he)
    refine ⟨?_, fun s => by simp only [lastSetBy, hv, if_neg (h v hv)]⟩
    rw [← visitGet_shopping hI.toSessionInv key]
    rcases request_shopping hI hv user a with ⟨-, hc, -⟩ | ⟨v', -, hc, -⟩
    · exact shopping_congr (by rw [hc])
    · rw [shopping_put hc, if_neg hne]
  · have hv : ∀ v, (w.visitGet key).2 ≠ .ok (some v) := fun v h => hv ⟨v, h⟩
    refine ⟨?_, fun s => ?_⟩
    · rw [request_of_not_found hv]
      exact visitGet_shopping hI.toSessionInv key
    · simp only [lastSetBy]

/-- A request for the visit `g`: it keeps what was set for it, or sees something else, or loses
some of it. -/
theorem request_own (hI : w.ShoppingInv) (hv : (w.visitGet key).2 = .ok (some v))
    (hg : v.visitGuid = g) : (v.shopping = w.shopping g ∧ w.KeepsShopping g (.request key user a) ∧
      (w.request key user a).1.shopping g = w.lastSetBy g (w.shopping g) (.request key user a)) ∨
    v.shopping ≠ w.shopping g ∧ ¬ w.KeepsShopping g (.request key user a) ∧ w.shopping g ≠ {} ∨
    (¬ w.KeepsShopping g (.request key user a) ∧
      w.lastSetBy g (w.shopping g) (.request key user a) = w.shopping g ∧ w.shopping g ≠ {} ∧
      (w.request key user a).1.shopping g ≠ w.shopping g) := by
  have hkeeps : w.KeepsShopping g (.request key user a) ↔ (key = g.text ∨ w.shopping g = {}) ∧
      ∀ s, a = .authenticate s → (w.request key user a).2 = true →
        (w.shopping g).currentQueryID = 0 ∧ (w.shopping g).currentQueryState = none :=
    ⟨fun h => h v hv hg, fun h _ _ _ => h⟩
  have hsees : v.shopping = w.shopping g ↔ key = g.text ∨ w.shopping g = {} := by
    rw [found_shopping hI hv, hg]
    split_ifs with hk
    · simp [hk]
    · simp only [hk, false_or]
      exact eq_comm
  by_cases hseen : v.shopping = w.shopping g
  swap
  · refine .inr (.inl ⟨hseen, fun h => hseen (hsees.2 (hkeeps.1 h).1), fun h => ?_⟩)
    exact hseen (hsees.2 (.inr h))
  have hset : ∀ s, w.lastSetBy g s (.request key user a) =
      (w.visitGet key).1.lastSet (CallContext.ofVisit user (some v)) s a := by
    intro s
    simp only [lastSetBy, hv, if_pos hg]
  rcases request_shopping hI hv user a with ⟨hauth, hc, hs⟩ | ⟨v', -, hc,
    ⟨hauth, hs⟩ | ⟨ha, hok, hs⟩⟩
  · refine .inl ⟨hseen, hkeeps.2 ⟨hsees.1 hseen, fun s ha hok => ?_⟩, ?_⟩
    · rw [hauth s ha] at hok
      cases hok
    · rw [hset, hs, ← visitGet_shopping hI.toSessionInv key]
      exact shopping_congr (by rw [hc])
  · refine .inl ⟨hseen, hkeeps.2 ⟨hsees.1 hseen, fun s ha => absurd ha (hauth s)⟩, ?_⟩
    rw [shopping_put hc, if_pos (by rw [hg]), hs, hset, hseen]
  · obtain ⟨s, rfl⟩ := ha
    have hafter : (w.request key user (.authenticate s)).1.shopping g =
        { cart := (w.shopping g).cart } := by
      rw [shopping_put hc, if_pos (by rw [hg]), hs, ← hseen]
      rfl
    by_cases hq : (w.shopping g).currentQueryID = 0 ∧ (w.shopping g).currentQueryState = none
    · refine .inl ⟨hseen, hkeeps.2 ⟨hsees.1 hseen, fun _ _ _ => hq⟩, ?_⟩
      rw [hset, hafter]
      show _ = w.shopping g
      rcases hw : w.shopping g with ⟨cart, queryID, state⟩
      rw [hw] at hq
      obtain ⟨rfl, rfl⟩ := hq
      rfl
    · refine .inr (.inr ⟨fun h => hq ((hkeeps.1 h).2 s rfl hok), hset _, fun h => hq ?_,
        fun h => hq ?_⟩)
      · rw [h]
        exact ⟨rfl, rfl⟩
      · rw [← h, hafter]
        exact ⟨rfl, rfl⟩

theorem createVisit_shopping (w : World) (g : Guid) (a : VisitArgs) :
    (w.createVisit a).shopping g =
      if (w.db.spVisitCreate a).2.visitGuid = g then {} else w.shopping g := by
  have hput : (w.createVisit a).visitCache = put w.visitCache
      (w.db.spVisitCreate a).2.visitGuid.text (.entity (w.db.spVisitCreate a).2.read) := rfl
  rw [shopping_put hput]
  exact if_congr ⟨fun h => Guid.text_injective h, fun h => by rw [h]⟩ rfl rfl

theorem createVisit_cases (hI : w.ShoppingInv) {a : VisitArgs}
    (ha : w.Lasting (.createVisit a)) :
    (w.KeepsShopping g (.createVisit a) ∧ (w.createVisit a).shopping g = w.shopping g) ∨
      (¬ w.KeepsShopping g (.createVisit a) ∧ w.shopping g ≠ {} ∧
        (w.createVisit a).shopping g ≠ w.shopping g) := by
  rw [createVisit_shopping]
  rcases hr : w.db.reusedVisit a with _ | e
  · refine .inl ⟨fun e he => absurd (hr.symm.trans he) (by simp), ?_⟩
    have hguid : (w.db.spVisitCreate a).2.visitGuid = a.newGuid := by
      unfold Db.spVisitCreate
      rw [hr]
      rfl
    rw [hguid]
    split_ifs with hg
    · refine (shopping_of_none fun v hv => ?_).symm
      obtain ⟨r, hrow, -, -, hrg⟩ := hI.row _ v hv
      have hparse := hI.guid _ v hv
      rw [Guid.parse_text, Option.some.injEq] at hparse
      exact ha.2 r hrow (by rw [hrg, ← hparse, hg])
    · rfl
  · have hguid : (w.db.spVisitCreate a).2.visitGuid = e.visitGuid := by
      unfold Db.spVisitCreate
      rw [hr]
      rfl
    rw [hguid]
    by_cases hg : e.visitGuid = g
    · rw [if_pos hg]
      by_cases hs : w.shopping g = {}
      · exact .inl ⟨fun _ _ _ => hs, hs.symm⟩
      · exact .inr ⟨fun h => hs (h e hr hg), hs, fun h => hs h.symm⟩
    · rw [if_neg hg]
      refine .inl ⟨fun e' he' hg' => ?_, rfl⟩
      rw [hr, Option.some.injEq] at he'
      exact absurd (he' ▸ hg') hg

/-- An event keeps the shopping state and shows it; or there is one, and it is not shown, or it is
changed although nothing was set. -/
theorem step_shopping (hI : w.ShoppingInv) (e : Event) (he : w.Lasting e) :
    (w.KeepsShopping g e ∧ w.Sees g (w.shopping g) e ∧
      (w.step e).shopping g = w.lastSetBy g (w.shopping g) e) ∨
    (¬ w.KeepsShopping g e ∧ (¬ w.Sees g (w.shopping g) e ∨
      w.lastSetBy g (w.shopping g) e = w.shopping g ∧ w.shopping g ≠ {} ∧
        (w.step e).shopping g ≠ w.shopping g)) := by
  cases e with
  | request key user a =>
    by_cases hv : ∃ v, (w.visitGet key).2 = .ok (some v) ∧ v.visitGuid = g
    · obtain ⟨v, hv, hg⟩ := hv
      have hsees : w.Sees g (w.shopping g) (.request key user a) ↔ v.shopping = w.shopping g := by
        refine ⟨fun h => h v hv hg, fun h v' hv' _ => ?_⟩
        obtain rfl : v' = v := by simpa [hv] using hv'.symm
        exact h
      rw [hsees]
      rcases request_own user a hI hv hg with ⟨h1, h2, h3⟩ | ⟨h1, h2, -⟩ | h
      · exact .inl ⟨h2, h1, h3⟩
      · exact .inr ⟨h2, .inl h1⟩
      · exact .inr ⟨h.1, .inr h.2⟩
    · have hv : ∀ v, (w.visitGet key).2 = .ok (some v) → v.visitGuid ≠ g := fun v h hg =>
        hv ⟨v, h, hg⟩
      obtain ⟨hs, hset⟩ := request_other user a hI hv
      refine .inl ⟨fun v h hg => absurd hg (hv v h), fun v h hg => absurd hg (hv v h), ?_⟩
      rw [hset]
      exact hs
  | createVisit a =>
    rcases createVisit_cases hI he with ⟨h1, h2⟩ | ⟨h1, h2, h3⟩
    · exact .inl ⟨h1, trivial, h2⟩
    · exact .inr ⟨h1, .inr ⟨rfl, h2, h3⟩⟩
  | evict key => exact he.elim

theorem not_survives {s : Shopping} (hs : s ≠ {}) : ∀ {w : World} {es : List Event},
    w.ShoppingInv → RunOk step Lasting w es → w.shopping g ≠ s → ¬ Survives g w s es
  | _, [], _, _, hne => hne
  | w, e :: es, hI, hok, hne => by
    rintro ⟨hsees, hrest⟩
    have hI' := step_shoppingInv hI e hok.1
    cases e with
    | request key user a =>
      by_cases hv : ∃ v, (w.visitGet key).2 = .ok (some v) ∧ v.visitGuid = g
      · obtain ⟨v, hv, hg⟩ := hv
        have hseen := hsees v hv hg
        rw [found_shopping hI hv, hg] at hseen
        split_ifs at hseen
        · exact hne hseen
        · exact hs hseen.symm
      · obtain ⟨hsame, hset⟩ := request_other user a hI fun v h hg => hv ⟨v, h, hg⟩
        rw [hset] at hrest
        exact not_survives hs hI' hok.2 (by rw [← hsame] at hne; exact hne) hrest
    | createVisit a =>
      refine not_survives hs hI' hok.2 ?_ hrest
      show (w.createVisit a).shopping g ≠ s
      rw [createVisit_shopping]
      split_ifs
      · exact fun h => hs h.symm
      · exact hne
    | evict key => exact hok.1.elim

/-- In a run without evictions every request for a visit sees what was last set for it exactly if
every step keeps the shopping state of the visit. -/
theorem shopping_survives_iff : ∀ {w : World} {es : List Event}, w.ShoppingInv →
    RunOk step Lasting w es →
    (Survives g w (w.shopping g) es ↔ RunOk step (fun w e => w.KeepsShopping g e) w es)
  | _, [], _, _ => iff_of_true rfl trivial
  | w, e :: es, hI, hok => by
    have hI' := step_shoppingInv hI e hok.1
    rcases step_shopping (g := g) hI e hok.1 with ⟨hkeeps, hsees, hset⟩ | ⟨hno, hlost⟩
    · have ih := shopping_survives_iff hI' hok.2
      rw [hset] at ih
      exact ⟨fun h => ⟨hkeeps, ih.1 h.2⟩, fun h => ⟨hsees, ih.2 h.2⟩⟩
    · refine iff_of_false (fun h => ?_) fun h => hno h.1
      rcases hlost with hlost | ⟨hset, hne, hlost⟩
      · exact hlost h.1
      · have hrest := h.2
        rw [hset] at hrest
        exact not_survives hne hI' hok.2 hlost hrest

end Steps

end World

def search : Event :=
  .request signedIn.visitGuid.text none (.setQuery (some "WA".toList) 42)

def signInAgain : Event :=
  .request signedIn.visitGuid.text none (.authenticate
    { tokens := .ok (700, some "S8".toList, some "T8".toList), userKnown := false
      newGuid := signedIn.visitGuid })

theorem resumed_shoppingInv : resumed.ShoppingInv :=
  ⟨resumed_inv, fun _ _ h => (by cases h)⟩

/-- The search is still there after the cart was filled and the user has signed out. -/
theorem search_survives : World.Survives signedIn.visitGuid resumed {}
    [search, .request signedIn.visitGuid.text none (.cartUpdate (some {})), signOut,
      .request signedIn.visitGuid.text none .read] := by
  have hlasting : RunOk World.step World.Lasting resumed
      [search, .request signedIn.visitGuid.text none (.cartUpdate (some {})), signOut,
        .request signedIn.visitGuid.text none .read] :=
    ⟨trivial, trivial, trivial, trivial, trivial⟩
  refine (World.shopping_survives_iff resumed_shoppingInv hlasting).2 ⟨?_, ?_, ?_, ?_, trivial⟩ <;>
    exact fun _ _ _ => ⟨.inl rfl, fun _ h => (by cases h)⟩

/-- The search is lost when the user signs in, and when the same browser creates a visit again. -/
theorem search_lost : resumed.ShoppingInv ∧
    (run World.step resumed [search]).shopping signedIn.visitGuid =
      { currentQueryID := 42, currentQueryState := some "WA".toList } ∧
    (RunOk World.step World.Lasting resumed [search, signInAgain] ∧
      (run World.step resumed [search, signInAgain]).shopping signedIn.visitGuid = {} ∧
      ¬ World.Survives signedIn.visitGuid resumed {} [search, signInAgain]) ∧
    (RunOk World.step World.Lasting resumed [search, .createVisit (again none)] ∧
      (run World.step resumed [search, .createVisit (again none)]).shopping
        signedIn.visitGuid = {} ∧
      ¬ World.Survives signedIn.visitGuid resumed {} [search, .createVisit (again none)]) := by
  have hsignIn : (run World.step resumed [search, signInAgain]).shopping signedIn.visitGuid =
      {} := by
    decide
  have hagain : (run World.step resumed [search, .createVisit (again none)]).shopping
      signedIn.visitGuid = {} := by
    decide
  refine ⟨resumed_shoppingInv, by decide, ⟨⟨trivial, trivial, trivial⟩, hsignIn, fun h => ?_⟩,
    ⟨⟨trivial, ⟨?_, ?_⟩, trivial⟩, hagain, fun h => ?_⟩⟩
  · exact absurd (hsignIn.symm.trans h.2.2) (by decide)
  · intro siteID
    have : (oneVisit.siteVisits siteID).length ≤ 1 := List.length_filter_le ..
    show (oneVisit.siteVisits siteID).length < 4294967296
    omega
  · intro r hr
    obtain rfl : r = signedIn := List.mem_singleton.1 hr
    decide
  · exact absurd (hagain.symm.trans h.2.2) (by decide)

end AciX
