import AciX.Visit.Shopping

/-!
# One visit under several texts

Each text that denotes the guid of a visit has a cache entry of its own, filled from the row of the
visit, while whatever changes the visit writes the entry of the one text that `ToString` gives. So
two texts agree as long as the entries say what the row says: `Quiet` are the steps that keep it so
(`oneSession_of_quiet`).
-/

namespace AciX

open EntityCache List Sql

structure Session where
  userID : ℤ := 0
  userGuid : Option Guid := none
  cart : Option Cart := none
  currentQueryID : ℤ := 0
  currentQueryState : Option Text := none
  iwsUserToken : Option Text := none
  iwsUserTokenExpiry : Option ℤ := none
  iwsUserID : Option ℤ := none
  storefrontUserToken : Option Text := none
  deriving DecidableEq

def DBVisit.session (v : DBVisit) : Session where
  userID := v.userID
  userGuid := v.userGuid
  cart := v.cart
  currentQueryID := v.currentQueryID
  currentQueryState := v.currentQueryState
  iwsUserToken := v.iwsUserToken
  iwsUserTokenExpiry := v.iwsUserTokenExpiry
  iwsUserID := v.iwsUserID
  storefrontUserToken := v.storefrontUserToken

/-- The action leaves the visit `v` as it is: it sets what is there, or it is refused. -/
def Action.Idle (v : DBVisit) : Action → Prop
  | .read => True
  | .cartUpdate cart => cart = v.cart
  | .cartCheckout _ => v.cart = none
  | .setQuery state queryID => state = v.currentQueryState ∧ queryID = v.currentQueryID
  | .logout => v.userGuid = none ∧ v.userID = 0
  | .authenticate s | .create s => s.tokens.isOk = false
  | .updatePassword p => p.storefrontUserToken.isOk = false

def Action.signsIn : Action → Bool
  | .authenticate _ | .create _ => true
  | _ => false

namespace World

section Model

variable (w : World) (g : Guid)

def observed (key : Text) : Except Exn (Option Session) :=
  (w.visitGet key).2.map (Option.map DBVisit.session)

/-- All spellings of the token show the same session. -/
def OneSession : Prop :=
  ∀ k k', Guid.parse k = some g → Guid.parse k' = some g → w.observed k = w.observed k'

def rowSession : Option Session := (w.db.spVisitGetByToken g).head?.map DBVisit.session

def entrySession : Entry DBVisit → Option Session
  | .entity v => some v.session
  | .notInDB => none

def OwnEntryOnly : Prop := ∀ k, Guid.parse k = some g → k ≠ g.text → w.visitCache k = none

/-- The step keeps the entries of `g` in line with its row. A request for the visit changes nothing,
or signs in through the visit's own text while no other text has an entry; a request for another
visit leaves the row, as it is read, alone; and the visit is created with nothing to inherit, and
used again while the row has no user and none is given. -/
def Quiet : Event → Prop
  | .request key user a =>
    (∀ v, (w.visitGet key).2 = .ok (some v) → v.visitGuid = g → a.Idle v ∨
      (a.signsIn = true ∧ (w.request key user a).2 = true ∧ key = g.text ∧ w.OwnEntryOnly g)) ∧
    ((∀ v, (w.visitGet key).2 = .ok (some v) → v.visitGuid ≠ g) →
      (w.request key user a).1.rowSession g = w.rowSession g)
  | .createVisit a =>
    match w.db.reusedVisit a with
    | some e => e.visitGuid = g → a.userGuid = none ∧ e.userID = none
    | none => a.newGuid = g → w.db.existingVisit a = none ∧ a.userGuid = none ∧
        ∀ k, Guid.parse k = some g → w.visitCache k = none
  | .evict _ => True

def NewGuid : Event → Prop
  | .createVisit a => w.Room (.createVisit a) ∧ ∀ r ∈ w.db.visits, r.visitGuid ≠ a.newGuid
  | _ => True

structure Coherent : Prop extends w.SessionInv where
  guids : Sql.Unique (·.visitGuid) w.db.visits
  entries : ∀ k e, Guid.parse k = some g → w.visitCache k = some e →
    entrySession e = w.rowSession g

end Model

variable {w w' : World} {ctx : CallContext} {v : DBVisit} {g : Guid} {key : Text}

section Row

variable {db : Db} {r : VisitRow}

def rowVisit (users : List UserRow) (r : VisitRow) : DBVisit :=
  Db.readVisit r (users.find? fun u => eqNull (some u.id) r.userID)

theorem rowVisit_of_none {users : List UserRow} (h : r.userID = none) :
    rowVisit users r = Db.readVisit r none := by
  rw [rowVisit, find?_eq_none.2 (by simp [h])]

section

variable (hk : Sql.Unique (fun v : VisitRow => (v.siteID, v.id)) db.visits)
include hk

theorem spVisitGet_row
    (hr : r ∈ db.visits) :
    (db.spVisitGet (some r.siteID) (some r.id)).head? = some (rowVisit db.users r) := by
  have hfilter : (db.visits.filter fun v => eqNull (some v.siteID) (some r.siteID) &&
      eqNull (some v.id) (some r.id)) = [r] :=
    hk.filter_eq_singleton hr fun v _ => by simp
  simp only [Db.spVisitGet, hfilter, rowVisit, leftJoin, flatMap_cons, flatMap_nil,
    append_nil, ← head?_filter]
  generalize List.filter _ db.users = us
  cases us <;> rfl

theorem spVisitGetByToken_row
    (hg : Sql.Unique (·.visitGuid) db.visits) (hr : r ∈ db.visits) :
    (db.spVisitGetByToken r.visitGuid).head? = some (rowVisit db.users r) := by
  obtain ⟨r', hr'⟩ := selectLast_isSome (p := (·.visitGuid = r.visitGuid)) hr (by simp)
  obtain ⟨hm, hguid⟩ := selectLast_mem hr'
  obtain rfl := hg.eq hm hr (by simpa using hguid)
  rw [Db.spVisitGetByToken, hr']
  exact spVisitGet_row hk hm

end

theorem spVisitGetByToken_none (h : ∀ r ∈ db.visits, r.visitGuid ≠ g) :
    (db.spVisitGetByToken g).head? = none := by
  have hlast : selectLast (·.visitGuid = g) db.visits = none :=
    selectLast_none.2 fun r hr => by simpa using h r hr
  rw [Db.spVisitGetByToken, hlast]
  simp [Db.spVisitGet, leftJoin]

theorem rowSession_of_row (hk : Sql.Unique (fun v : VisitRow => (v.siteID, v.id)) w.db.visits)
    (hg : Sql.Unique (·.visitGuid) w.db.visits) (hr : r ∈ w.db.visits) :
    w.rowSession r.visitGuid = some (rowVisit w.db.users r).session := by
  rw [rowSession, spVisitGetByToken_row hk hg hr]
  rfl

theorem rowSession_of_none (h : ∀ r ∈ w.db.visits, r.visitGuid ≠ g) : w.rowSession g = none := by
  rw [rowSession, spVisitGetByToken_none h]
  rfl

theorem rowSession_plain {s : Session} (h : w.rowSession g = some s) :
    s.cart = none ∧ s.currentQueryID = 0 ∧ s.currentQueryState = none := by
  obtain ⟨v, hv, rfl⟩ := Option.map_eq_some_iff.1 h
  have hs := shopping_of_spVisitGet (mem_of_head? hv)
  simp only [DBVisit.shopping, Shopping.mk.injEq] at hs
  exact hs

end Row

theorem visitGet_cases_row (hk : Guid.parse key = some g) :
    (∃ e, w.visitCache key = some e ∧ (w.visitGet key).1 = w ∧
        (w.visitGet key).2.map (Option.map DBVisit.session) = .ok (entrySession e)) ∨
      (w.visitCache key = none ∧ ∃ e, entrySession e = w.rowSession g ∧ (w.visitGet key).1 =
          { w with visitCache := put w.visitCache key e } ∧
        (w.visitGet key).2.map (Option.map DBVisit.session) = .ok (entrySession e)) := by
  rcases he : w.visitCache key with _ | ⟨v⟩ | _
  · right
    have hhead : (w.db.spVisitGetByToken g).head? = ((w.db.spVisitGetByToken g).take 1).head? := by
      cases w.db.spVisitGetByToken g <;> rfl
    rcases ht : (w.db.spVisitGetByToken g).take 1 with _ | ⟨v, l⟩
    · refine ⟨rfl, .notInDB, ?_, ?_, ?_⟩
      · rw [rowSession, hhead, ht]
        rfl
      · simp [visitGet, hk, EntityCache.get, he, Db.visitCache, ht]
      · simp [visitGet, hk, EntityCache.get, he, Db.visitCache, ht, Except.map, entrySession]
    · refine ⟨rfl, .entity v, ?_, ?_, ?_⟩
      · rw [rowSession, hhead, ht]
        rfl
      · simp [visitGet, hk, EntityCache.get, he, Db.visitCache, ht]
      · simp [visitGet, hk, EntityCache.get, he, Db.visitCache, ht, Except.map, entrySession]
  · left
    exact ⟨_, rfl, by rw [visitGet_of_entity he], by rw [visitGet_of_entity he]; rfl⟩
  · left
    refine ⟨_, rfl, ?_, ?_⟩
    · simp [visitGet, EntityCache.get, he]
    · simp [visitGet, EntityCache.get, he, Except.map, entrySession]

theorem Coherent.oneSession (hI : w.Coherent g) : w.OneSession g := by
  have hrow : ∀ k, Guid.parse k = some g → w.observed k = .ok (w.rowSession g) := by
    intro k hk
    rcases visitGet_cases_row hk with ⟨e, he, -, hobs⟩ | ⟨-, e, he, -, hobs⟩
    · rw [← hI.entries k e hk he]
      exact hobs
    · rw [← he]
      exact hobs
  intro k k' hk hk'
  rw [hrow k hk, hrow k' hk']

theorem visitGet_of_ne (hI : w.VisitInv) {k : Text} (h : k ≠ key) :
    (w.visitGet key).1.visitCache k = w.visitCache k := by
  rcases visitGet_cases hI key with ⟨hw, -⟩ | ⟨-, hw⟩ | ⟨-, v, -, -, hw⟩ <;> rw [hw]
  all_goals exact put_of_ne h ..

theorem visitGet_rowSession (key : Text) : (w.visitGet key).1.rowSession g = w.rowSession g := by
  unfold rowSession
  rw [visitGet_db]

theorem Coherent.visitGet (hI : w.Coherent g) (key : Text) : (w.visitGet key).1.Coherent g := by
  refine ⟨hI.toSessionInv.visitGet key, by rw [visitGet_db]; exact hI.guids, fun k e hk he => ?_⟩
  rw [visitGet_rowSession]
  by_cases hkey : Guid.parse key = some g
  · rcases visitGet_cases_row hkey with ⟨e', -, hw, -⟩ | ⟨-, e', he', hw, -⟩ <;> rw [hw] at he
    · exact hI.entries k e hk he
    · rcases put_cases he with ⟨rfl, rfl⟩ | he
      · exact he'
      · exact hI.entries k e hk he
  · have hne : k ≠ key := fun h => hkey (h ▸ hk)
    rw [visitGet_of_ne hI.toVisitInv hne] at he
    exact hI.entries k e hk he

theorem Coherent.found (hI : w.Coherent g) (h : (w.visitGet key).2 = .ok (some v))
    (hg : v.visitGuid = g) : w.rowSession g = some v.session := by
  obtain ⟨hentry, hparse⟩ := visitGet_found hI.toSessionInv h
  have he := (hI.visitGet key).entries key _ (hg ▸ hparse) hentry
  rw [visitGet_rowSession] at he
  exact he.symm

section Actions

variable {a : Action}

theorem cartCheckout_idle (w : World) (env : CheckoutEnv) (hv : ctx.dbVisit = some v)
    (hc : v.cart = none) : (w.cartCheckout env ctx).world = w := by
  have hfail : w.toOrderWorld.checkout env ctx =
      { world := w.toOrderWorld, calls := [], result := .error .cartEmpty } := by
    simp only [OrderWorld.checkout, hv, hc]
  unfold World.cartCheckout
  dsimp only
  split
  · rfl
  split
  · rfl
  split
  · rfl
  rw [hfail]
  rfl

theorem act_idle (hv : ctx.dbVisit = some v) (ha : a.Idle v) :
    (w.act ctx v a).1.db = w.db ∧ ((w.act ctx v a).1.visitCache = w.visitCache ∨
      (w.act ctx v a).1.visitCache = put w.visitCache v.visitGuid.text (.entity v)) := by
  cases a with
  | read => exact ⟨rfl, .inl rfl⟩
  | cartUpdate cart =>
    obtain rfl : cart = v.cart := ha
    simp only [act, cartUpdate, hv]
    exact ⟨rfl, .inr rfl⟩
  | cartCheckout env =>
    show (w.cartCheckout env ctx).world.db = w.db ∧ ((w.cartCheckout env ctx).world.visitCache = _ ∨
      _)
    rw [cartCheckout_idle w env hv ha]
    exact ⟨rfl, .inl rfl⟩
  | setQuery state queryID =>
    obtain ⟨rfl, rfl⟩ := ha
    exact ⟨rfl, .inr rfl⟩
  | logout =>
    refine ⟨rfl, .inr ?_⟩
    show put w.visitCache v.visitGuid.text (.entity { v with userGuid := none, userID := 0 }) = _
    rw [← ha.1, ← ha.2]
  | authenticate s =>
    have ha : s.tokens.isOk = false := ha
    simp only [act, authenticate]
    rcases ht : s.tokens with e | t
    · exact ⟨rfl, .inl rfl⟩
    · simp [ht, Except.isOk, Except.toBool] at ha
  | create s =>
    have ha : s.tokens.isOk = false := ha
    simp only [act, userCreate]
    rcases ht : s.tokens with e | t
    · exact ⟨rfl, .inl rfl⟩
    · simp [ht, Except.isOk, Except.toBool] at ha
  | updatePassword p =>
    have ha : p.storefrontUserToken.isOk = false := ha
    simp only [act, updatePassword]
    rcases ht : p.storefrontUserToken with e | t
    · exact ⟨rfl, .inl rfl⟩
    · simp [ht, Except.isOk, Except.toBool] at ha

theorem act_signsIn (ha : a.signsIn = true) (hok : (w.act ctx v a).2 = true)
    (hv : v.shopping = {}) :
    ∃ (v' v'' : DBVisit) (g : Guid),
      ((w.act ctx v a).1.db.spVisitGet (some ctx.siteID) (some ctx.visitID)).head? = some v' ∧
      (w.act ctx v a).1.visitCache = put w.visitCache g.text (.entity v'') ∧
      (g = v.visitGuid ∨ g = v'.visitGuid) ∧ v''.session = v'.session := by
  simp only [DBVisit.shopping, Shopping.mk.injEq] at hv
  obtain ⟨hcart, hqueryID, hstate⟩ := hv
  have hplain : ∀ {db : Db} {v' : DBVisit},
      (db.spVisitGet (some ctx.siteID) (some ctx.visitID)).head? = some v' →
        v'.cart = none ∧ v'.currentQueryID = 0 ∧ v'.currentQueryState = none := by
    intro db v' hr
    have hs := shopping_of_spVisitGet (mem_of_head? hr)
    simpa only [DBVisit.shopping, Shopping.mk.injEq] using hs
  cases a with
  | authenticate s =>
    rcases authenticate_cases w ctx v s with ⟨hno, -⟩ | ⟨-, v', hr, hc⟩
    · exact absurd (hno.symm.trans hok) (by decide)
    · refine ⟨v', _, _, hr, hc, .inr rfl, ?_⟩
      simp only [DBVisit.session, hcart, (hplain hr).1]
  | create s =>
    rcases userCreate_cases w ctx v s with ⟨hno, -⟩ | ⟨-, v', hr, hc⟩
    · exact absurd (hno.symm.trans hok) (by decide)
    · refine ⟨v', _, _, hr, hc, .inl rfl, ?_⟩
      simp only [DBVisit.session, hcart, hqueryID, hstate, hplain hr]
  | read | cartUpdate | cartCheckout | setQuery | logout | updatePassword => cases ha

end Actions

section Steps

variable {user : Option UserRow} {a : Action}

theorem SameVisits.guids {db db' : Db} {visitID : ℤ} (h : Db.SameVisits visitID db db')
    (hg : Sql.Unique (·.visitGuid) db.visits) : Sql.Unique (·.visitGuid) db'.visits := by
  obtain ⟨f, hf, hfr⟩ := h.visits
  rw [hf]
  exact hg.map fun r => (hfr r).2.2.1

section

variable (hI : w.Coherent g)
include hI

theorem Coherent.rowSession_of_acts {b : Bool} {v' : DBVisit}
    (hI' : w'.SessionInv) (hentry : ∃ k, w.visitCache k = some (.entity v)) (hacts : Acts v b w w')
    (hr : (w'.db.spVisitGet (some v.siteID) (some v.visitID)).head? = some v') :
    v'.visitGuid = v.visitGuid ∧ w'.rowSession v.visitGuid = some v'.session := by
  obtain ⟨k, hk⟩ := hentry
  obtain ⟨r₀, hr₀, h1, h2, h3⟩ := hI.row k v hk
  obtain ⟨r, hrm, g1, g2, g3⟩ := hacts.db.mem hr₀
  have hrow := spVisitGet_row hI'.visits hrm
  rw [g1, g2, h1, h2, hr, Option.some.injEq] at hrow
  have hsession := rowSession_of_row hI'.visits (SameVisits.guids hacts.db hI.guids) hrm
  rw [g3, h3, ← hrow] at hsession
  refine ⟨?_, hsession⟩
  rw [hrow]
  exact g3.trans h3

theorem Coherent.idle (hv : (w.visitGet key).2 = .ok (some v))
    (hg : v.visitGuid = g) (ha : a.Idle v) : (w.request key user a).1.Coherent g := by
  have hI' := step_inv hI.toSessionInv (.request key user a) trivial
  change (w.request key user a).1.SessionInv at hI'
  rw [request_of_found hv] at hI' ⊢
  obtain ⟨hdb, hc⟩ := act_idle (w := (w.visitGet key).1)
    (show (CallContext.ofVisit user (some v)).dbVisit = some v from rfl) ha
  have hget := hI.visitGet key
  have hrow : ((w.visitGet key).1.act (CallContext.ofVisit user (some v)) v a).1.rowSession g =
      (w.visitGet key).1.rowSession g := by
    unfold rowSession
    rw [hdb]
  refine ⟨hI', by rw [hdb]; exact hget.guids, fun k e hk he => ?_⟩
  rw [hrow]
  rcases hc with hc | hc <;> rw [hc] at he
  · exact hget.entries k e hk he
  · rcases put_cases he with ⟨-, rfl⟩ | he
    · rw [visitGet_rowSession, hI.found hv hg]
      rfl
    · exact hget.entries k e hk he

theorem Coherent.signsIn (hv : (w.visitGet key).2 = .ok (some v))
    (hg : v.visitGuid = g) (ha : a.signsIn = true) (hok : (w.request key user a).2 = true)
    (hkey : key = g.text) (hown : w.OwnEntryOnly g) : (w.request key user a).1.Coherent g := by
  have hI' := step_inv hI.toSessionInv (.request key user a) trivial
  change (w.request key user a).1.SessionInv at hI'
  rw [request_of_found hv] at hI' hok ⊢
  have hget := hI.visitGet key
  have hentry : ∃ k, (w.visitGet key).1.visitCache k = some (.entity v) :=
    ⟨key, (visitGet_found hI.toSessionInv hv).1⟩
  have hacts : Acts v _ _ ((w.visitGet key).1.act (CallContext.ofVisit user (some v)) v a).1 :=
    acts_act hget.toSessionInv hentry rfl rfl rfl a
  have hplain : v.shopping = {} := by
    obtain ⟨h1, h2, h3⟩ := rowSession_plain (hI.found hv hg)
    simp only [DBVisit.shopping, Shopping.mk.injEq]
    exact ⟨h1, h2, h3⟩
  obtain ⟨v', v'', g', hr, hc, hg', hs⟩ := act_signsIn ha hok hplain
  obtain ⟨hrg, hrow⟩ := hget.rowSession_of_acts hI' hentry hacts hr
  obtain rfl : g' = g := by
    rcases hg' with h | h
    · exact h.trans hg
    · exact h.trans (hrg.trans hg)
  refine ⟨hI', SameVisits.guids hacts.db hget.guids, fun k e hk he => ?_⟩
  rw [← hg, hrow, ← hs]
  rw [hc] at he
  by_cases hkg : k = g'.text
  · rw [hkg, put_self] at he
    cases he
    rfl
  · rw [put_of_ne hkg, visitGet_of_ne hI.toVisitInv (by rw [hkey]; exact hkg), hown k hk hkg] at he
    cases he

theorem Coherent.other
    (h : ∀ v, (w.visitGet key).2 = .ok (some v) → v.visitGuid ≠ g)
    (hrow : (w.request key user a).1.rowSession g = w.rowSession g) :
    (w.request key user a).1.Coherent g := by
  have hI' : (w.request key user a).1.SessionInv :=
    step_inv hI.toSessionInv (.request key user a) trivial
  have hget := hI.visitGet key
  rcases request_cases hI.toSessionInv key user a with hr | ⟨v, hv, -, hacts⟩
  · rw [hr]
    exact hget
  · refine ⟨hI', SameVisits.guids hacts.db hget.guids, fun k e hk he => ?_⟩
    rw [hrow, ← visitGet_rowSession key]
    refine hget.entries k e hk ?_
    rcases hacts.cache with hc | ⟨v', -, -, -, -, hc⟩ <;> rw [hc] at he
    · exact he
    · rwa [put_of_ne] at he
      rintro rfl
      rw [Guid.parse_text, Option.some.injEq] at hk
      exact h v hv hk

theorem Coherent.request (hq : w.Quiet g (.request key user a)) :
    (w.request key user a).1.Coherent g := by
  by_cases hv : ∃ v, (w.visitGet key).2 = .ok (some v) ∧ v.visitGuid = g
  · obtain ⟨v, hv, hg⟩ := hv
    rcases hq.1 v hv hg with ha | ⟨ha, hok, hkey, hown⟩
    · exact hI.idle hv hg ha
    · exact hI.signsIn hv hg ha hok hkey hown
  · have hv : ∀ v, (w.visitGet key).2 = .ok (some v) → v.visitGuid ≠ g := fun v h hg =>
      hv ⟨v, h, hg⟩
    exact hI.other hv (hq.2 hv)

theorem rowSession_congr (hI' : w'.SessionInv)
    (hg : Sql.Unique (·.visitGuid) w'.db.visits) (hu : w'.db.users = w.db.users)
    (hkept : ∀ r ∈ w.db.visits, r.visitGuid = g → r ∈ w'.db.visits)
    (hnew : ∀ r ∈ w'.db.visits, r.visitGuid = g → ∃ r₀ ∈ w.db.visits, r₀.visitGuid = g) :
    w'.rowSession g = w.rowSession g := by
  by_cases hr : ∃ r ∈ w.db.visits, r.visitGuid = g
  · obtain ⟨r, hr, rfl⟩ := hr
    rw [rowSession_of_row hI'.visits hg (hkept r hr rfl), rowSession_of_row hI.visits hI.guids hr,
      hu]
  · rw [rowSession_of_none fun r h hg => hr ⟨r, h, hg⟩, rowSession_of_none fun r h hg =>
      hr (hnew r h hg)]

theorem Coherent.usedAgain {b : VisitArgs} {e : VisitRow}
    (hI' : (w.createVisit b).SessionInv) (hr : w.db.reusedVisit b = some e)
    (hq : e.visitGuid = g → b.userGuid = none ∧ e.userID = none) :
    (w.createVisit b).Coherent g := by
  obtain ⟨hex, he, hes⟩ := Db.reusedVisit_some hr
  have hcreate : w.db.spVisitCreate b =
      ({ w.db with
          visits := w.db.visits.map fun v =>
            if v.siteID = b.siteID ∧ v.id = e.id then w.db.usedAgain b v else v },
        w.db.createdVisit b e.id e.visitGuid) := by
    unfold Db.spVisitCreate
    rw [hr]
  have hvisits : (w.createVisit b).db.visits = w.db.visits.map fun v =>
      if v.siteID = b.siteID ∧ v.id = e.id then w.db.usedAgain b v else v := by
    show (w.db.spVisitCreate b).1.visits = _
    rw [hcreate]
  have husers : (w.createVisit b).db.users = w.db.users := by
    show (w.db.spVisitCreate b).1.users = _
    rw [hcreate]
  have hcache : (w.createVisit b).visitCache = put w.visitCache e.visitGuid.text
      (.entity (w.db.createdVisit b e.id e.visitGuid).read) := by
    show put w.visitCache (w.db.spVisitCreate b).2.visitGuid.text
      (.entity (w.db.spVisitCreate b).2.read) = _
    rw [hcreate]
    rfl
  have hguids : Sql.Unique (·.visitGuid) (w.createVisit b).db.visits := by
    rw [hvisits]
    refine hI.guids.map fun v => ?_
    split_ifs <;> rfl
  have hself : w.db.usedAgain b e ∈ (w.createVisit b).db.visits := by
    rw [hvisits]
    exact mem_map.2 ⟨e, he, if_pos ⟨hes, rfl⟩⟩
  refine ⟨hI', hguids, fun k e' hk he' => ?_⟩
  rw [hcache] at he'
  by_cases hg : e.visitGuid = g
  · obtain ⟨hguid, huser⟩ := hq hg
    subst hg
    have hidentity : w.db.createdIdentity b = e.identity := by
      simp only [Db.createdIdentity, Db.userByGuid, hguid, Option.bind_none]
      exact Db.loadedIdentity_of_reused hr
    have hrow : (w.createVisit b).rowSession e.visitGuid = w.rowSession e.visitGuid := by
      have hrow' := rowSession_of_row hI'.visits hguids hself
      change (w.createVisit b).rowSession e.visitGuid = _ at hrow'
      rw [hrow', rowSession_of_row hI.visits hI.guids he, husers]
      rw [rowVisit_of_none huser, rowVisit_of_none]
      · rfl
      · simp only [Db.usedAgain, hidentity, VisitRow.identity, huser, Option.none_or]
    rw [hrow]
    rcases put_cases he' with ⟨-, rfl⟩ | he'
    · rw [rowSession_of_row hI.visits hI.guids he, rowVisit_of_none huser]
      simp only [entrySession, CreatedVisit.read, Db.createdVisit, hidentity, hguid, hex, huser,
        VisitRow.identity]
      rfl
    · exact hI.entries k e' hk he'
  · have hother : ∀ r ∈ w.db.visits, r.visitGuid = g → r ∈ (w.createVisit b).db.visits := by
      intro r hrm hrg
      rw [hvisits]
      refine mem_map.2 ⟨r, hrm, if_neg fun h => hg ?_⟩
      obtain rfl := hI.visits.eq hrm he (by simp only [h, hes])
      exact hrg
    rw [rowSession_congr hI hI' hguids husers hother]
    · refine hI.entries k e' hk ?_
      rwa [put_of_ne] at he'
      rintro rfl
      rw [Guid.parse_text, Option.some.injEq] at hk
      exact hg hk
    · intro r hrm hrg
      rw [hvisits] at hrm
      obtain ⟨r₀, hr₀, rfl⟩ := mem_map.1 hrm
      refine ⟨r₀, hr₀, ?_⟩
      split_ifs at hrg <;> exact hrg

theorem Coherent.created {b : VisitArgs} (hI' : (w.createVisit b).SessionInv)
    (hr : w.db.reusedVisit b = none) (hfresh : ∀ r ∈ w.db.visits, r.visitGuid ≠ b.newGuid)
    (hq : b.newGuid = g → w.db.existingVisit b = none ∧ b.userGuid = none ∧
      ∀ k, Guid.parse k = some g → w.visitCache k = none) : (w.createVisit b).Coherent g := by
  have hcreate : (w.createVisit b).db.visits = w.db.visits ++ [w.db.newVisit b] ∧
      (w.createVisit b).db.users = w.db.users ∧
      (w.createVisit b).visitCache = put w.visitCache b.newGuid.text
        (.entity (w.db.createdVisit b (w.db.nextVisitID b) b.newGuid).read) := by
    unfold World.createVisit Db.spVisitCreate
    rw [hr]
    exact ⟨rfl, rfl, rfl⟩
  obtain ⟨hvisits, husers, hcache⟩ := hcreate
  have hguids : Sql.Unique (·.visitGuid) (w.createVisit b).db.visits := by
    rw [hvisits]
    refine hI.guids.append (nodup_singleton _) fun r hrm r' hr' => ?_
    obtain rfl := mem_singleton.1 hr'
    exact hfresh r hrm
  have hself : w.db.newVisit b ∈ (w.createVisit b).db.visits := by
    rw [hvisits]
    exact mem_append_right _ (mem_singleton_self _)
  refine ⟨hI', hguids, fun k e hk he => ?_⟩
  rw [hcache] at he
  by_cases hg : b.newGuid = g
  · obtain ⟨hex, hguid, hnone⟩ := hq hg
    subst hg
    have hidentity : w.db.createdIdentity b = {} := by
      simp only [Db.createdIdentity, Db.userByGuid, hguid, Option.bind_none, Db.loadedIdentity, hex]
      rfl
    have hrow := rowSession_of_row hI'.visits hguids hself
    change (w.createVisit b).rowSession b.newGuid = _ at hrow
    rw [hrow, rowVisit_of_none (by simp only [Db.newVisit, hidentity])]
    rcases put_cases he with ⟨-, rfl⟩ | he
    · simp only [entrySession, CreatedVisit.read, Db.createdVisit, hidentity, hguid, hex]
      rfl
    · rw [hnone k hk] at he
      cases he
  · rw [rowSession_congr hI hI' hguids husers]
    · refine hI.entries k e hk ?_
      rwa [put_of_ne] at he
      rintro rfl
      rw [Guid.parse_text, Option.some.injEq] at hk
      exact hg hk
    · intro r hrm _
      rw [hvisits]
      exact mem_append_left _ hrm
    · intro r hrm hrg
      rw [hvisits] at hrm
      rcases mem_append.1 hrm with hrm | hrm
      · exact ⟨r, hrm, hrg⟩
      · obtain rfl := mem_singleton.1 hrm
        exact absurd hrg hg

theorem step_coherent (e : Event) (hq : w.Quiet g e) (hn : w.NewGuid e) :
    (w.step e).Coherent g := by
  cases e with
  | request key user a => exact hI.request hq
  | createVisit b =>
    have hI' : (w.createVisit b).SessionInv := step_inv hI.toSessionInv (.createVisit b) hn.1
    unfold Quiet at hq
    rcases hr : w.db.reusedVisit b with _ | e <;> simp only [hr] at hq
    · exact hI.created hI' hr hn.2 hq
    · exact hI.usedAgain hI' hr hq
  | evict key =>
    exact ⟨step_inv hI.toSessionInv (.evict key) trivial, hI.guids, fun k e hk he =>
      hI.entries k e hk (remove_sub he)⟩

end

/-- In every run of quiet steps all texts of a guid find the same session. -/
theorem oneSession_of_quiet {es : List Event} (hI : w.Coherent g)
    (hrun : RunOk step (fun w e => w.Quiet g e ∧ w.NewGuid e) w es) :
    (run step w es).OneSession g := by
  have hlast : (run step w es).Coherent g :=
    run_inv (I := fun w : World => w.Coherent g)
      (fun _ e hI h => step_coherent hI e h.1 h.2) hI hrun
  exact hlast.oneSession

end Steps

end World

def capitals : Text := "0F8FAD5B-D9CB-469F-A165-70867728950E".toList

theorem parse_capitals : Guid.parse capitals = some signedIn.visitGuid := by decide +kernel

theorem resumed_coherent : resumed.Coherent signedIn.visitGuid :=
  ⟨resumed_inv, by decide +kernel, fun _ _ _ h => (by cases h)⟩

/-- Both texts were used, and the entry of one was lost. -/
theorem resumed_oneSession : (run World.step resumed
    [.request capitals none .read, .request signedIn.visitGuid.text none .read,
      .evict capitals]).OneSession signedIn.visitGuid := by
  refine World.oneSession_of_quiet resumed_coherent ⟨⟨⟨?_, ?_⟩, trivial⟩, ⟨⟨?_, ?_⟩, trivial⟩,
    ⟨trivial, trivial⟩, trivial⟩
  · exact fun _ _ _ => .inl trivial
  · exact fun _ => by decide
  · exact fun _ _ _ => .inl trivial
  · exact fun _ => by decide

/-- After a search the capital letters find no query, and after signing out they still find the
user. -/
theorem capitals_differ :
    let searched := resumed.step search
    let signedOut := resumed.step signOut
    resumed.Coherent signedIn.visitGuid ∧ Guid.parse capitals = some signedIn.visitGuid ∧
    ((searched.observed signedIn.visitGuid.text).map (·.map (·.currentQueryID)) = .ok (some 42) ∧
      (searched.observed capitals).map (·.map (·.currentQueryID)) = .ok (some 0) ∧
      ¬ searched.OneSession signedIn.visitGuid) ∧
    ((signedOut.observed signedIn.visitGuid.text).map (·.map (·.userID)) = .ok (some 0) ∧
      (signedOut.observed capitals).map (·.map (·.userID)) = .ok (some 7) ∧
      ¬ signedOut.OneSession signedIn.visitGuid) := by
  have hsame : ∀ w : World, w.OneSession signedIn.visitGuid →
      w.observed signedIn.visitGuid.text = w.observed capitals := fun w h =>
    h _ _ (Guid.parse_text _) parse_capitals
  refine ⟨resumed_coherent, parse_capitals, ⟨by decide, by decide, fun h => ?_⟩,
    ⟨by decide, by decide, fun h => ?_⟩⟩
  · exact absurd (hsame _ h) (by decide)
  · exact absurd (hsame _ h) (by decide)

end AciX
