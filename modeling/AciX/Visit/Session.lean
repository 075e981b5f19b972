import AciX.Cart.Checkout
import AciX.Run
import AciX.User.SignIn

/-!
# Sessions

The visit in the cache says who is signed in, and the row of the visit says it again. Signing in
writes both, signing out the cache only. So once the entry of a visit that was signed out is lost,
or its row is used again, the user is back. `step_signedOut` says which steps keep a visit
`SignedOut`, and `logout_final` follows runs.
-/

namespace AciX

open EntityCache

inductive Action where
  | read
  | cartUpdate (cart : Option Cart)
  | cartCheckout (env : CheckoutEnv)
  | setQuery (state : Option Text) (queryID : ℤ)
  | logout
  | authenticate (s : SignIn)
  | create (s : SignIn)
  | updatePassword (p : PasswordChange)

def Action.writesRow : Action → Bool
  | .authenticate _ | .create _ | .updatePassword _ => true
  | _ => false

inductive Event where
  /-- A request with the visit's guid in its header; `user` is what the user cache holds. -/
  | request (key : Text) (user : Option UserRow) (a : Action)
  | createVisit (a : VisitArgs)
  | evict (key : Text)

namespace World

section Model

variable (w : World)

def act (ctx : CallContext) (v : DBVisit) : Action → World × Bool
  | .read => (w, false)
  | .cartUpdate cart => (w.cartUpdate ctx cart, false)
  | .cartCheckout env => ((w.cartCheckout env ctx).world, false)
  | .setQuery state queryID => (w.setQuery v state queryID, false)
  | .logout => (w.logout v, false)
  | .authenticate s => ((w.authenticate ctx v s).1, (w.authenticate ctx v s).2.isOk)
  | .create s => ((w.userCreate ctx v s).1, (w.userCreate ctx v s).2.isOk)
  | .updatePassword p => ((w.updatePassword ctx v p).1, false)

def request (key : Text) (user : Option UserRow) (a : Action) : World × Bool :=
  match w.sendAsync (some key) user with
  | (w', .error _) => (w', false)
  | (w', .ok ctx) =>
    match ctx.dbVisit with
    | none => (w', false)
    | some v => w'.act ctx v a

def createVisit (a : VisitArgs) : World :=
  ({ w with db := (w.db.spVisitCreate a).1 } : World).visitSet (w.db.spVisitCreate a).2.read

def step : Event → World
  | .request key user a => (w.request key user a).1
  | .createVisit a => w.createVisit a
  | .evict key => { w with visitCache := remove w.visitCache key }

/-- What holds of the visits at any time: a cached visit has its row. -/
structure SessionInv : Prop extends w.VisitInv where
  row : ∀ k v, w.visitCache k = some (.entity v) →
    ∃ r ∈ w.db.visits, r.siteID = v.siteID ∧ r.id = v.visitID ∧ r.visitGuid = v.visitGuid
  sequence : Sql.InRange w.db.visitSequence

/-- There is a visit id left for a visit that is created. -/
def Room : Event → Prop
  | .createVisit _ => ∀ siteID, (w.db.siteVisits siteID).length < 4294967296
  | _ => True

def Anonymous (g : Guid) : Prop :=
  ∀ r ∈ w.db.visits, r.visitGuid = g → r.userID = none ∨ r.userID = some 0

def SignedOut (g : Guid) : Prop :=
  match w.visitCache g.text with
  | none => w.Anonymous g
  | some .notInDB => True
  | some (.entity v) => v.userID = 0

/-- The step keeps the visit `g` signed out: requests spell its guid as `ToString` does and sign
nobody in; while it has no entry, nothing is written into its row for another visit of the same id;
it is not created again under its guid, and not used again while there is a user to load; and its
entry is not lost while its row has a user. -/
def KeepsOut (g : Guid) : Event → Prop
  | .request key user a =>
    (Guid.parse key = some g → key = g.text ∧ (w.request key user a).2 = false) ∧
    (Guid.parse key ≠ some g → a.writesRow = true → w.visitCache g.text = none →
      ∀ w' ctx, w.sendAsync (some key) user = (w', .ok ctx) →
        ∀ r ∈ w.db.visits, r.visitGuid = g → r.id ≠ ctx.visitID)
  | .createVisit a =>
    a.newGuid ≠ g ∧ ∀ e, w.db.reusedVisit a = some e → e.visitGuid = g →
      w.db.userByGuid a = none ∧ (e.userID = none ∨ e.userID = some 0)
  | .evict key => key = g.text → w.Anonymous g

end Model

structure Acts (v : DBVisit) (signedIn : Bool) (w w' : World) : Prop where
  db : w.db.SameVisits v.visitID w'.db
  cache : w'.visitCache = w.visitCache ∨ ∃ v' : DBVisit, v'.visitGuid = v.visitGuid ∧
    v'.siteID = v.siteID ∧ v'.visitID = v.visitID ∧
    (signedIn = false → v'.userID = v.userID ∨ v'.userID = 0) ∧
    w'.visitCache = put w.visitCache v.visitGuid.text (.entity v')

variable {w w' : World} {ctx : CallContext} {v : DBVisit}

theorem acts_visitSet {signedIn : Bool} {w₁ : World} (hdb : w.db.SameVisits v.visitID w₁.db)
    (hc : w₁.visitCache = w.visitCache) {v' : DBVisit} (hg : v'.visitGuid = v.visitGuid)
    (hs : v'.siteID = v.siteID) (hid : v'.visitID = v.visitID)
    (hu : signedIn = false → v'.userID = v.userID ∨ v'.userID = 0) :
    Acts v signedIn w (w₁.visitSet v') := by
  refine ⟨hdb, .inr ⟨v', hg, hs, hid, hu, ?_⟩⟩
  rw [visitSet_visitCache, hc, hg]

section Actions

variable (hI : w.SessionInv) (hv : ∃ k, w.visitCache k = some (.entity v))
  (hs : ctx.siteID = v.siteID) (hid : ctx.visitID = v.visitID)
include hI hv hs hid

theorem spVisitGet_same {db : Db} (hdb : w.db.SameVisits v.visitID db) {v' : DBVisit}
    (h : (db.spVisitGet (some ctx.siteID) (some ctx.visitID)).head? = some v') :
    v'.visitGuid = v.visitGuid ∧ v'.siteID = v.siteID ∧ v'.visitID = v.visitID := by
  obtain ⟨k, hk⟩ := hv
  obtain ⟨r₀, hr₀, h1, h2, h3⟩ := hI.row k v hk
  obtain ⟨r₁, hr₁, g1, g2, g3⟩ := hdb.mem hr₀
  obtain ⟨r, hr, hrs, hri, hread⟩ := Db.mem_spVisitGet (List.mem_of_head? h)
  rw [hs, Option.some.injEq] at hrs
  rw [hid, Option.some.injEq] at hri
  obtain rfl := (hdb.unique hI.visits).eq hr hr₁ (by simp only [← hrs, ← hri, g1, g2, h1, h2])
  exact ⟨hread.visitGuid.trans (g3.trans h3), hread.siteID.trans hrs.symm,
    hread.visitID.trans hri.symm⟩

theorem acts_signInVisit {w₁ : World} (hdb : w.db.SameVisits v.visitID w₁.db)
    (hc : w₁.visitCache = w.visitCache) (s : SignIn) (t : ℤ × Option Text × Option Text)
    (u : UserRow) {f : DBVisit → DBVisit}
    (hf : ∀ v' : DBVisit, v'.visitGuid = v.visitGuid → v'.siteID = v.siteID →
      v'.visitID = v.visitID → (f v').visitGuid = v.visitGuid ∧ (f v').siteID = v.siteID ∧
        (f v').visitID = v.visitID) :
    Acts v (w₁.signInVisit ctx s t u f).2.isOk w (w₁.signInVisit ctx s t u f).1 := by
  unfold signInVisit
  rcases s.visitUpdate with e | _
  · exact ⟨hdb, .inl hc⟩
  dsimp only
  have hdb' : w.db.SameVisits v.visitID (w₁.db.spVisitUpdateIwsUserToken s.now ctx.visitID
      (some u.id) t.2.2 t.2.1 t.1) := by
    rw [hid]
    exact hdb.trans (Db.sameVisits_updateToken rfl rfl ..)
  split
  · exact ⟨hdb', .inl hc⟩
  · rename_i v' hv'
    obtain ⟨h1, h2, h3⟩ := spVisitGet_same hI hv hs hid hdb' hv'
    obtain ⟨g1, g2, g3⟩ := hf v' h1 h2 h3
    exact acts_visitSet (by exact hdb') (by exact hc) g1 g2 g3 fun h => (by cases h)

theorem acts_authenticate (s : SignIn) :
    Acts v (w.authenticate ctx v s).2.isOk w (w.authenticate ctx v s).1 := by
  unfold authenticate
  rcases s.tokens with e | t
  · exact ⟨.of_eq rfl rfl, .inl rfl⟩
  dsimp only
  split_ifs with hknown
  · have hdb : w.db.SameVisits v.visitID (w.db.spUserUpdate ctx s t.1 t.2.2 t.2.1).1 := by
      rw [← hid]
      exact Db.sameVisits_userUpdate ..
    rcases (w.db.spUserUpdate ctx s t.1 t.2.2 t.2.1).2 with _ | u
    · exact ⟨hdb, .inl rfl⟩
    · exact acts_signInVisit hI hv hs hid (by exact hdb) (by rfl) s t u fun v' h1 h2 h3 =>
        ⟨h1, h2, h3⟩
  · rcases hcreate : w.db.spUserCreate ctx s t.1 t.2.2 t.2.1 with e | ⟨db, u⟩
    · exact ⟨.of_eq rfl rfl, .inl rfl⟩
    · have hdb : w.db.SameVisits v.visitID db := by
        rw [← hid]
        exact Db.sameVisits_userCreate hcreate
      exact acts_signInVisit hI hv hs hid (by exact hdb) (by rfl) s t u fun v' h1 h2 h3 =>
        ⟨h1, h2, h3⟩

theorem acts_userCreate (s : SignIn) :
    Acts v (w.userCreate ctx v s).2.isOk w (w.userCreate ctx v s).1 := by
  unfold userCreate
  rcases s.tokens with e | t
  · exact ⟨.of_eq rfl rfl, .inl rfl⟩
  dsimp only
  rcases hcreate : w.db.spUserCreate ctx s s.externalID t.2.2 t.2.1 with e | ⟨db, u⟩
  · exact ⟨.of_eq rfl rfl, .inl rfl⟩
  · have hdb : w.db.SameVisits v.visitID db := by
      rw [← hid]
      exact Db.sameVisits_userCreate hcreate
    exact acts_signInVisit hI hv hs hid (by exact hdb) (by rfl) s t u fun v' _ _ _ =>
      ⟨rfl, rfl, rfl⟩

omit hI hv hs in
theorem acts_updatePassword (p : PasswordChange) : Acts v false w (w.updatePassword ctx v p).1 := by
  unfold updatePassword
  rcases p.storefrontUserToken with e | storefrontUserToken
  · exact ⟨.of_eq rfl rfl, .inl rfl⟩
  dsimp only
  have hdb : w.db.SameVisits v.visitID (w.db.spVisitUpdateIwsUserToken p.now ctx.visitID
      (some v.userID) none storefrontUserToken (v.iwsUserID.getD 0)) := by
    rw [← hid]
    exact Db.sameVisits_updateToken rfl rfl ..
  split
  · exact ⟨hdb, .inl rfl⟩
  · exact ⟨hdb, .inl rfl⟩
  rcases p.iwsUserToken with e | iwsUserToken
  · exact ⟨hdb, .inl rfl⟩
  dsimp only
  have hdb' : w.db.SameVisits v.visitID ((w.db.spVisitUpdateIwsUserToken p.now ctx.visitID
      (some v.userID) none storefrontUserToken (v.iwsUserID.getD 0)).spVisitUpdateIwsUserToken p.now
        ctx.visitID (some v.userID) iwsUserToken none (v.iwsUserID.getD 0)) := by
    refine hdb.trans ?_
    rw [hid]
    exact Db.sameVisits_updateToken rfl rfl ..
  split
  · exact ⟨hdb', .inl rfl⟩
  · exact acts_visitSet (by exact hdb') (by rfl) rfl rfl rfl fun _ => .inl rfl

theorem acts_act (hv' : ctx.dbVisit = some v) (a : Action) :
    Acts v (w.act ctx v a).2 w (w.act ctx v a).1 := by
  cases a with
  | read => exact ⟨.of_eq rfl rfl, .inl rfl⟩
  | cartUpdate cart =>
    show Acts v false w (w.cartUpdate ctx cart)
    simp only [World.cartUpdate, hv']
    exact acts_visitSet (.of_eq rfl rfl) rfl rfl rfl rfl fun _ => .inl rfl
  | cartCheckout env =>
    obtain ⟨hkept, hcache⟩ := cartCheckout_visits w env ctx
    refine ⟨.of_eq hkept.1 hkept.2, hcache.imp_right fun h => ?_⟩
    refine ⟨{ v with cart := none }, rfl, rfl, rfl, fun _ => .inl rfl, h.trans ?_⟩
    simp only [World.cartUpdate, hv']
    rfl
  | setQuery state queryID =>
    exact acts_visitSet (.of_eq rfl rfl) rfl rfl rfl rfl fun _ => .inl rfl
  | logout => exact acts_visitSet (.of_eq rfl rfl) rfl rfl rfl rfl fun _ => .inr rfl
  | authenticate s => exact acts_authenticate hI hv hs hid s
  | create s => exact acts_userCreate hI hv hs hid s
  | updatePassword p => exact acts_updatePassword hid p

end Actions

theorem act_visits {a : Action} (h : a.writesRow = false) :
    (w.act ctx v a).1.db.visits = w.db.visits := by
  cases a with
  | cartUpdate cart =>
    show (w.cartUpdate ctx cart).db.visits = _
    unfold World.cartUpdate
    split <;> rfl
  | cartCheckout env => exact (cartCheckout_visits w env ctx).1.1
  | read | setQuery | logout => rfl
  | authenticate s | create s | updatePassword p => cases h

section

variable (hI : w.SessionInv)
include hI

theorem SessionInv.acts {b : Bool} (hv : ∃ k, w.visitCache k = some (.entity v))
    (h : Acts v b w w') : w'.SessionInv := by
  obtain ⟨k₀, hk₀⟩ := hv
  have hrow : ∀ k v₁, w.visitCache k = some (.entity v₁) → ∃ r ∈ w'.db.visits,
      r.siteID = v₁.siteID ∧ r.id = v₁.visitID ∧ r.visitGuid = v₁.visitGuid := by
    intro k v₁ hk
    obtain ⟨r, hr, h1, h2, h3⟩ := hI.row k v₁ hk
    obtain ⟨r', hr', g1, g2, g3⟩ := h.db.mem hr
    exact ⟨r', hr', g1.trans h1, g2.trans h2, g3.trans h3⟩
  have hseq : Sql.InRange w'.db.visitSequence := h.db.sequence ▸ hI.sequence
  rcases h.cache with hc | ⟨v', hg, hs, hid, -, hc⟩
  · exact ⟨⟨h.db.unique hI.visits, by rw [hc]; exact hI.guid, by rw [hc]; exact hI.cart⟩,
      by rw [hc]; exact hrow, hseq⟩
  · refine ⟨⟨h.db.unique hI.visits, fun k v₁ hk => ?_, fun k v₁ hk hcart => ?_⟩, fun k v₁ hk => ?_,
      hseq⟩ <;> rw [hc] at hk <;> rcases put_cases hk with ⟨rfl, hv₁⟩ | hk
    · cases hv₁
      rw [hg, Guid.parse_text]
    · exact hI.guid k v₁ hk
    · cases hv₁
      rw [hg]
    · exact hI.cart k v₁ hk hcart
    · cases hv₁
      rw [hg, hs, hid]
      exact hrow k₀ v hk₀
    · exact hrow k v₁ hk

theorem SessionInv.visitGet (key : Text) : (w.visitGet key).1.SessionInv := by
  rcases visitGet_cases hI.toVisitInv key with ⟨hw, -⟩ | ⟨-, hw⟩ | ⟨-, v, ⟨r, hr, hread⟩, hg, hw⟩
  · rw [hw]
    exact hI
  · rw [hw]
    refine ⟨⟨hI.visits, fun k v₁ hk => ?_, fun k v₁ hk hcart => ?_⟩, fun k v₁ hk => ?_,
      hI.sequence⟩ <;> rcases put_cases hk with ⟨rfl, hv₁⟩ | hk
    · cases hv₁
    · exact hI.guid k v₁ hk
    · cases hv₁
    · exact hI.cart k v₁ hk hcart
    · cases hv₁
    · exact hI.row k v₁ hk
  · rw [hw]
    refine ⟨⟨hI.visits, fun k v₁ hk => ?_, fun k v₁ hk hcart => ?_⟩, fun k v₁ hk => ?_,
      hI.sequence⟩ <;> rcases put_cases hk with ⟨rfl, hv₁⟩ | hk
    · cases hv₁
      exact hg
    · exact hI.guid k v₁ hk
    · cases hv₁
      exact absurd hread.cart hcart
    · exact hI.cart k v₁ hk hcart
    · cases hv₁
      exact ⟨r, hr, hread.siteID.symm, hread.visitID.symm, hread.visitGuid.symm⟩
    · exact hI.row k v₁ hk

theorem visitGet_found {key : Text} (h : (w.visitGet key).2 = .ok (some v)) :
    (w.visitGet key).1.visitCache key = some (.entity v) ∧ Guid.parse key = some v.visitGuid := by
  rcases visitGet_cases hI.toVisitInv key with ⟨hw, he⟩ | ⟨-, hw⟩ | ⟨-, v', -, hg, hw⟩
  · rw [hw]
    exact ⟨he v h, hI.guid key v (he v h)⟩
  · rw [hw] at h
    cases h
  · rw [hw] at h ⊢
    obtain rfl := Option.some.inj (Except.ok.inj h)
    exact ⟨put_self .., hg⟩

theorem request_cases (key : Text) (user : Option UserRow) (a : Action) :
    w.request key user a = ((w.visitGet key).1, false) ∨
      ∃ v, (w.visitGet key).2 = .ok (some v) ∧ w.request key user a
        = (w.visitGet key).1.act (CallContext.ofVisit user (some v)) v a ∧
        Acts v (w.request key user a).2 (w.visitGet key).1 (w.request key user a).1 := by
  have hI' := hI.visitGet key
  rcases hg : (w.visitGet key).2 with e | _ | v
  · exact .inl (by simp [request, sendAsync, hg, Except.map])
  · exact .inl (by simp [request, sendAsync, hg, Except.map, CallContext.ofVisit])
  · have hreq : w.request key user a
        = (w.visitGet key).1.act (CallContext.ofVisit user (some v)) v a := by
      simp [request, sendAsync, hg, Except.map, CallContext.ofVisit]
    refine .inr ⟨v, rfl, hreq, ?_⟩
    rw [hreq]
    exact acts_act hI' ⟨key, (visitGet_found hI hg).1⟩ rfl rfl rfl a

theorem SessionInv.createVisit {a : VisitArgs}
    (hroom : w.Room (.createVisit a)) : (w.createVisit a).SessionInv := by
  obtain ⟨hvisits, hseq⟩ := Db.spVisitCreate_keys (a := a) ⟨hI.visits, hroom, hI.sequence⟩
  obtain ⟨hrows, hnew⟩ := w.db.spVisitCreate_rows a
  have hI' : ({ w with db := (w.db.spVisitCreate a).1 } : World).VisitInv :=
    ⟨hvisits, hI.guid, hI.cart⟩
  refine ⟨hI'.visitSet _, fun k v hk => ?_, hseq⟩
  rcases put_cases hk with ⟨rfl, hv⟩ | hk
  · cases hv
    exact hnew
  · obtain ⟨r, hr, h1, h2, h3⟩ := hI.row k v hk
    obtain ⟨r', hr', g1, g2, g3⟩ := hrows r hr
    exact ⟨r', hr', g1.trans h1, g2.trans h2, g3.trans h3⟩

theorem step_inv (e : Event) (hroom : w.Room e) : (w.step e).SessionInv := by
  cases e with
  | request key user a =>
    show (w.request key user a).1.SessionInv
    rcases request_cases hI key user a with h | ⟨v, hv, -, hacts⟩
    · rw [h]
      exact hI.visitGet key
    · exact (hI.visitGet key).acts ⟨key, (visitGet_found hI hv).1⟩ hacts
  | createVisit a => exact hI.createVisit hroom
  | evict key =>
    exact ⟨⟨hI.visits, fun k v hk => hI.guid k v (remove_sub hk),
      fun k v hk => hI.cart k v (remove_sub hk)⟩,
      fun k v hk => hI.row k v (remove_sub hk), hI.sequence⟩

end

section SignedOut

variable {g : Guid} {user : Option UserRow}

theorem signedOut_of_entity (h : w.visitCache g.text = some (.entity v)) :
    w.SignedOut g ↔ v.userID = 0 := by
  unfold SignedOut
  rw [h]

theorem Anonymous.signedOut (h : w.Anonymous g) (hc : w.visitCache g.text = none) :
    w.SignedOut g := by
  unfold SignedOut
  rw [hc]
  exact h

theorem SignedOut.of_entry (h : w.SignedOut g) (hc : w'.visitCache g.text = w.visitCache g.text)
    (hrows : w.visitCache g.text = none → w.Anonymous g → w'.Anonymous g) : w'.SignedOut g := by
  unfold SignedOut at h ⊢
  rw [hc]
  rcases he : w.visitCache g.text with _ | ⟨v⟩ | _ <;> simp only [he] at h ⊢
  · exact hrows he h
  · exact h

theorem visitGet_db (w : World) (key : Text) : (w.visitGet key).1.db = w.db := by
  unfold World.visitGet
  split_ifs <;> rfl

section

variable (hI : w.SessionInv)
include hI

theorem visitGet_entry_none {key k : Text}
    (h : (w.visitGet key).1.visitCache k = none) : w.visitCache k = none := by
  rcases visitGet_cases hI.toVisitInv key with ⟨hw, -⟩ | ⟨hn, hw⟩ | ⟨hn, v', -, -, hw⟩
  · rwa [hw] at h
  all_goals
    by_cases hk : k = key
    · rw [hk, hn]
    · rw [hw] at h
      exact (put_of_ne hk ..).symm.trans h

theorem SignedOut.visitGet (h : w.SignedOut g) (key : Text) :
    (w.visitGet key).1.SignedOut g := by
  by_cases hkey : g.text = key
  · rcases visitGet_cases hI.toVisitInv key with ⟨hw, -⟩ | ⟨hn, hw⟩ | ⟨hn, v, ⟨r, hr, hread⟩, hg,
      hw⟩
    · rw [hw]
      exact h
    · rw [hw]
      unfold SignedOut
      dsimp only
      rw [hkey, put_self]
      trivial
    · rw [hw]
      refine (signedOut_of_entity (v := v) (hkey ▸ put_self ..)).2 ?_
      rw [← hkey, Guid.parse_text, Option.some.injEq] at hg
      unfold SignedOut at h
      rw [hkey, hn] at h
      have hrow := h r hr (hread.visitGuid.symm.trans hg.symm)
      rcases hread.userID with hu | hu
      · exact hu
      · rw [hu] at hrow
        simpa using hrow
  · refine h.of_entry ?_ fun _ ha => ?_
    · rcases visitGet_cases hI.toVisitInv key with ⟨hw, -⟩ | ⟨-, hw⟩ | ⟨-, v, -, -, hw⟩ <;> rw [hw]
      · exact put_of_ne hkey ..
      · exact put_of_ne hkey ..
    · unfold Anonymous
      rw [visitGet_db]
      exact ha

theorem SignedOut.request (h : w.SignedOut g) {key : Text} {a : Action}
    (hok : w.KeepsOut g (.request key user a)) :
    (w.request key user a).1.SignedOut g := by
  obtain ⟨hself, hother⟩ := hok
  have hget := h.visitGet hI key
  rcases request_cases hI key user a with hr | ⟨v, hv, hr, hacts⟩
  · rw [hr]
    exact hget
  obtain ⟨hentry, hparse⟩ := visitGet_found hI hv
  by_cases hg : v.visitGuid = g
  · obtain ⟨rfl, hout⟩ := hself (by rw [hparse, hg])
    have hv0 := (signedOut_of_entity hentry).1 hget
    rcases hacts.cache with hc | ⟨v', hg', -, -, hu, hc⟩
    · exact (signedOut_of_entity (hc ▸ hentry)).2 hv0
    · rw [hg] at hc
      refine (signedOut_of_entity (v := v') (hc ▸ put_self ..)).2 ?_
      rcases hu hout with hu | hu
      · rw [hu, hv0]
      · exact hu
  · have hkey : Guid.parse key ≠ some g := by
      rw [hparse]
      exact fun he => hg (Option.some.inj he)
    refine hget.of_entry ?_ fun hn ha => ?_
    · rcases hacts.cache with hc | ⟨v', -, -, -, -, hc⟩ <;> rw [hc]
      exact put_of_ne (fun he => hg (Guid.text_injective he).symm) ..
    · rcases hw : a.writesRow with _ | _
      · intro r hr'
        rw [hr, act_visits hw] at hr'
        exact ha r hr'
      · obtain ⟨f, hf, hfr⟩ := hacts.db.visits
        intro r hr' hrg
        rw [hf] at hr'
        obtain ⟨r₀, hr₀, rfl⟩ := List.mem_map.1 hr'
        obtain ⟨-, -, h3, h4⟩ := hfr r₀
        have hsend : w.sendAsync (some key) user
            = ((w.visitGet key).1, .ok (CallContext.ofVisit user (some v))) := by
          simp [sendAsync, hv, Except.map]
        have hne := hother hkey hw (visitGet_entry_none hI hn) _ _ hsend r₀
          (by rw [← visitGet_db w key]; exact hr₀) (h3 ▸ hrg)
        rw [h4 hne]
        exact ha r₀ hr₀ (h3 ▸ hrg)

theorem SignedOut.createVisit (h : w.SignedOut g) {a : VisitArgs}
    (hok : w.KeepsOut g (.createVisit a)) : (w.createVisit a).SignedOut g := by
  obtain ⟨hnew, hreused⟩ := hok
  by_cases hg : (w.db.spVisitCreate a).2.visitGuid = g
  · refine (signedOut_of_entity (v := (w.db.spVisitCreate a).2.read) (hg ▸ put_self ..)).2 ?_
    show (w.db.spVisitCreate a).2.identity.userID.getD 0 = 0
    unfold Db.spVisitCreate at hg ⊢
    rcases hr : w.db.reusedVisit a with _ | e <;> simp only [hr] at hg ⊢
    · exact absurd hg hnew
    · obtain ⟨hnone, hu⟩ := hreused e hr hg
      show (w.db.createdIdentity a).userID.getD 0 = 0
      unfold Db.createdIdentity
      rw [hnone, Db.loadedIdentity_of_reused hr]
      show e.userID.getD 0 = 0
      rcases hu with hu | hu <;> rw [hu] <;> rfl
  · refine h.of_entry (put_of_ne (fun he => hg (Guid.text_injective he).symm) ..)
      fun _ ha r hr hrg => ?_
    rcases Db.mem_spVisitCreate hI.visits hr with hr | ⟨e, he, rfl⟩ | ⟨-, rfl⟩
    · exact ha r hr hrg
    · refine absurd ?_ hg
      unfold Db.spVisitCreate
      rw [he]
      exact hrg
    · exact absurd hrg hnew

theorem step_signedOut (h : w.SignedOut g) (e : Event)
    (hok : w.KeepsOut g e) : (w.step e).SignedOut g := by
  cases e with
  | request key user a => exact h.request hI hok
  | createVisit a => exact h.createVisit hI hok
  | evict key =>
    by_cases hkey : g.text = key
    · exact Anonymous.signedOut (hok hkey.symm) (hkey ▸ remove_self ..)
    · exact h.of_entry (remove_of_ne hkey ..) fun _ ha => ha

end

theorem logout_signedOut {key : Text}
    (h : w.sendAsync (some key) user = (w', .ok ctx)) (hv : ctx.dbVisit = some v) :
    (w.step (.request key user .logout)).SignedOut v.visitGuid := by
  have hstep : w.step (.request key user .logout) = w'.logout v := by
    show (w.request key user .logout).1 = _
    simp only [request, h, hv]
    rfl
  rw [hstep]
  exact (signedOut_of_entity (visitSet_visitCache_self _)).2 rfl

theorem SignedOut.sendAsync (hI : w.SessionInv) (h : w.SignedOut g)
    (hs : w.sendAsync (some g.text) user = (w', .ok ctx)) : ctx.authorizedUserID = 0 := by
  have hget := h.visitGet hI g.text
  simp only [World.sendAsync, Prod.mk.injEq] at hs
  rcases hg : (w.visitGet g.text).2 with e | _ | v
  · simp [hg, Except.map] at hs
  · simp only [hg, Except.map, Except.ok.injEq] at hs
    rw [← hs.2]
    rfl
  · simp only [hg, Except.map, Except.ok.injEq] at hs
    rw [← hs.2]
    exact (signedOut_of_entity (visitGet_found hI hg).1).1 hget

/-- Signing out is final: whatever happened before, a request for a visit that was signed out runs
for nobody, if each step since has kept the visit signed out. -/
theorem logout_final {key : Text} {user user' : Option UserRow} {before after : List Event}
    {w₁ w₂ : World} {ctx' : CallContext} (hI : w.SessionInv) (hbefore : RunOk step Room w before)
    (hlogout : (run step w before).sendAsync (some key) user = (w₁, .ok ctx))
    (hv : ctx.dbVisit = some v)
    (hafter : RunOk step (fun w e => w.KeepsOut v.visitGuid e ∧ w.Room e)
      ((run step w before).step (.request key user .logout)) after)
    (hreq : (run step ((run step w before).step (.request key user .logout)) after).sendAsync
      (some v.visitGuid.text) user' = (w₂, .ok ctx')) : ctx'.authorizedUserID = 0 := by
  have hI₁ : (run step w before).SessionInv :=
    run_inv (I := SessionInv) (fun _ e hI => step_inv hI e) hI hbefore
  have hlast := run_inv (I := fun w => w.SessionInv ∧ w.SignedOut v.visitGuid)
    (fun w e h hok => ⟨step_inv h.1 e hok.2, step_signedOut h.1 h.2 e hok.1⟩)
    ⟨step_inv hI₁ (.request key user .logout) trivial, logout_signedOut hlogout hv⟩ hafter
  exact hlast.2.sendAsync hlast.1 hreq

end SignedOut

end World

def resumed : World where
  db := { oneVisit with users := [{ shopper with id := 7 }] }
  orderCache := fun _ _ => none
  visitCache := fun _ => none

theorem resumed_inv : resumed.SessionInv :=
  ⟨⟨by decide, fun _ _ h => (by cases h), fun _ _ h => (by cases h)⟩, fun _ _ h => (by cases h),
    by decide⟩

def signOut : Event := .request signedIn.visitGuid.text none .logout

theorem resumed_signed_out : ∃ w' ctx,
    (run World.step (resumed.step signOut) [.request signedIn.visitGuid.text none .read]).sendAsync
      (some signedIn.visitGuid.text) none = (w', .ok ctx) ∧ ctx.authorizedUserID = 0 := by
  refine ⟨_, _, rfl, ?_⟩
  have hlogout : resumed.sendAsync (some signedIn.visitGuid.text) none
      = ((resumed.visitGet signedIn.visitGuid.text).1, .ok (CallContext.ofVisit none
          (some (Db.readVisit signedIn (some { shopper with id := 7 }))))) := rfl
  have hbefore : RunOk World.step World.Room resumed [] := trivial
  have hafter : RunOk World.step (fun w e => w.KeepsOut signedIn.visitGuid e ∧ w.Room e)
      (resumed.step signOut) [.request signedIn.visitGuid.text none .read] := by
    refine ⟨⟨⟨fun _ => ⟨rfl, by decide⟩, fun hne => ?_⟩, trivial⟩, trivial⟩
    exact absurd (Guid.parse_text _) hne
  exact World.logout_final resumed_inv hbefore hlogout rfl hafter rfl

/-- Signing out is undone when the cache loses the entry of the visit, and when the same browser
creates a visit again, although without a `UserGuid`. -/
theorem resumed_signed_in_again :
    let w := resumed.step signOut
    let userOf (w : World) := (w.sendAsync (some signedIn.visitGuid.text) none).2.map
      (·.authorizedUserID)
    resumed.SessionInv ∧ userOf resumed = .ok 7 ∧ userOf w = .ok 0 ∧
    userOf (w.step (.evict signedIn.visitGuid.text)) = .ok 7 ∧
    (again none).userGuid = none ∧ userOf (w.step (.createVisit (again none))) = .ok 7 := by
  refine ⟨resumed_inv, ?_, ?_, ?_, rfl, ?_⟩ <;> decide

end AciX
