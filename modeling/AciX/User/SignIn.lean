import AciX.Visit.Create

/-!
# Signing in and out

Signing in writes the user into the visit's row, twice, and then into the cached visit; signing out
changes the cached visit only. `spVisitUpdateIwsUserToken` finds the row by the visit's id without
comparing the site. What these operations can do to the visits table is said once, in `SameVisits`.
-/

namespace AciX

structure SignIn where
  now : ℤ := 0
  /-- The user's id, the storefront's token and the customer service's, if the credentials are
  good. -/
  tokens : Except Exn (ℤ × Option Text × Option Text)
  userKnown : Bool := true
  externalID : ℤ := 0
  emailAddress : Text := []
  hasValidPaymentMethod : Bool := false
  isBackofficeReader : Bool := false
  newGuid : Guid
  visitUpdate : Except Exn Unit := .ok ()

/-- The same for a change of password: the storefront's new token, and the customer service's. -/
structure PasswordChange where
  now : ℤ := 0
  storefrontUserToken : Except Exn (Option Text)
  iwsUserToken : Except Exn (Option Text)

namespace Db

section Model

variable (db : Db)

def withToken (now : ℤ) (visitID : ℤ) (userID : Option ℤ) (iwsUserToken : Option Text)
    (storefrontUserToken : Option Text) (iwsUserID : ℤ) (v : VisitRow) : VisitRow :=
  if v.id = visitID then
    { v with
      userID := userID
      iwsUserToken := (iwsUserToken.map (Sql.varchar 50)).or v.iwsUserToken
      iwsUserTokenExpiry := some (now + 86400000)
      iwsUserID := some iwsUserID
      storefrontUserToken := (storefrontUserToken.map (Sql.varchar 50)).or v.storefrontUserToken }
  else v

def spVisitUpdateIwsUserToken (now : ℤ) (visitID : ℤ) (userID : Option ℤ)
    (iwsUserToken storefrontUserToken : Option Text) (iwsUserID : ℤ) : Db :=
  { db with
    visits := db.visits.map
      (withToken now visitID userID iwsUserToken storefrontUserToken iwsUserID) }

/-- The user is inserted and signed in, unless the site has one of the same external id. -/
def spUserCreate (ctx : CallContext) (s : SignIn) (externalID : ℤ)
    (iwsUserToken storefrontUserToken : Option Text) : Except Exn (Db × UserRow) :=
  if db.users.any fun u => u.siteID = ctx.siteID && Sql.eqNull u.externalID (some externalID) then
    .error .sql
  else
    let u : UserRow :=
      { siteID := ctx.siteID
        id := 1 + Sql.maxFrom 0 (db.users.map (·.id))
        userGuid := s.newGuid
        externalID := some externalID
        emailAddress := some (Sql.varchar 128 s.emailAddress)
        isBackofficeReader := s.isBackofficeReader }
    .ok (({ db with users := db.users ++ [u] } : Db).spVisitUpdateIwsUserToken s.now ctx.visitID
      (some u.id) iwsUserToken storefrontUserToken externalID, u)

/-- `spUserUpdate` as a sign-in calls it: the user of an external id is updated and, if there is a
token, signed in. -/
def spUserUpdate (ctx : CallContext) (s : SignIn) (externalID : ℤ)
    (iwsUserToken storefrontUserToken : Option Text) : Db × Option UserRow :=
  let userID := (Sql.selectLast (fun u => u.siteID = ctx.siteID &&
    Sql.eqNull u.externalID (some externalID)) db.users).map (·.id)
  let users := db.users.map fun u =>
    if Sql.eqNull (some u.id) userID then
      { u with hasValidPaymentMethod := s.hasValidPaymentMethod, externalID := some externalID }
    else u
  let db' : Db := { db with users := users }
  (if iwsUserToken = none then db'
    else db'.spVisitUpdateIwsUserToken s.now ctx.visitID userID iwsUserToken storefrontUserToken
      externalID,
    users.find? fun u => Sql.eqNull (some u.id) userID)

end Model

/-- From `db` to `db'` no visit was added or removed, and only those with the id `visitID` may
have got another user. -/
structure SameVisits (visitID : ℤ) (db db' : Db) : Prop where
  visits : ∃ f : VisitRow → VisitRow, db'.visits = db.visits.map f ∧ ∀ r,
    (f r).siteID = r.siteID ∧ (f r).id = r.id ∧ (f r).visitGuid = r.visitGuid ∧
      (r.id ≠ visitID → (f r).userID = r.userID)
  sequence : db'.visitSequence = db.visitSequence

variable {db db' db'' : Db} {visitID : ℤ}

theorem SameVisits.of_eq (h : db'.visits = db.visits) (hs : db'.visitSequence = db.visitSequence) :
    SameVisits visitID db db' :=
  ⟨⟨id, by rw [h, List.map_id], fun _ => ⟨rfl, rfl, rfl, fun _ => rfl⟩⟩, hs⟩

theorem SameVisits.trans (h : SameVisits visitID db db') (h' : SameVisits visitID db' db'') :
    SameVisits visitID db db'' := by
  obtain ⟨f, hf, hfr⟩ := h.visits
  obtain ⟨g, hg, hgr⟩ := h'.visits
  refine ⟨⟨g ∘ f, by rw [hg, hf, List.map_map], fun r => ?_⟩, h'.sequence.trans h.sequence⟩
  obtain ⟨h1, h2, h3, h4⟩ := hfr r
  obtain ⟨g1, g2, g3, g4⟩ := hgr (f r)
  refine ⟨g1.trans h1, g2.trans h2, g3.trans h3, fun hne => ?_⟩
  exact (g4 (by rw [h2]; exact hne)).trans (h4 hne)

theorem sameVisits_updateToken (h : db'.visits = db.visits)
    (hs : db'.visitSequence = db.visitSequence) (now : ℤ) (userID : Option ℤ)
    (iwsUserToken storefrontUserToken : Option Text) (iwsUserID : ℤ) :
    SameVisits visitID db (db'.spVisitUpdateIwsUserToken now visitID userID iwsUserToken
      storefrontUserToken iwsUserID) := by
  refine ⟨⟨_, congrArg (List.map _) h, fun r => ?_⟩, hs⟩
  unfold withToken
  split_ifs with h
  · exact ⟨rfl, rfl, rfl, fun hne => absurd h hne⟩
  · exact ⟨rfl, rfl, rfl, fun _ => rfl⟩

theorem sameVisits_userCreate {ctx : CallContext} {s : SignIn} {externalID : ℤ}
    {iwsUserToken storefrontUserToken : Option Text} {u : UserRow}
    (h : db.spUserCreate ctx s externalID iwsUserToken storefrontUserToken = .ok (db', u)) :
    SameVisits ctx.visitID db db' := by
  unfold spUserCreate at h
  split_ifs at h
  simp only [Except.ok.injEq, Prod.mk.injEq] at h
  obtain ⟨rfl, -⟩ := h
  apply sameVisits_updateToken <;> rfl

theorem sameVisits_userUpdate (ctx : CallContext) (s : SignIn) (externalID : ℤ)
    (iwsUserToken storefrontUserToken : Option Text) :
    SameVisits ctx.visitID db
      (db.spUserUpdate ctx s externalID iwsUserToken storefrontUserToken).1 := by
  unfold spUserUpdate
  dsimp only
  split_ifs
  · exact .of_eq rfl rfl
  · apply sameVisits_updateToken <;> rfl

theorem SameVisits.mem (h : SameVisits visitID db db') {r : VisitRow} (hr : r ∈ db.visits) :
    ∃ r' ∈ db'.visits, r'.siteID = r.siteID ∧ r'.id = r.id ∧ r'.visitGuid = r.visitGuid := by
  obtain ⟨f, hf, hfr⟩ := h.visits
  obtain ⟨h1, h2, h3, -⟩ := hfr r
  exact ⟨f r, hf ▸ List.mem_map_of_mem hr, h1, h2, h3⟩

theorem SameVisits.unique (h : SameVisits visitID db db')
    (hk : Sql.Unique (fun v : VisitRow => (v.siteID, v.id)) db.visits) :
    Sql.Unique (fun v : VisitRow => (v.siteID, v.id)) db'.visits := by
  obtain ⟨f, hf, hfr⟩ := h.visits
  have hkeys : (fun v : VisitRow => (v.siteID, v.id)) ∘ f = fun v => (v.siteID, v.id) := by
    funext r
    obtain ⟨h1, h2, -⟩ := hfr r
    simp only [Function.comp_apply, h1, h2]
  unfold Sql.Unique at hk ⊢
  rw [hf, List.map_map, hkeys]
  exact hk

end Db

namespace World

section Model

variable (w : World) (ctx : CallContext) (v : DBVisit)

/-- `context.DBVisit.Cart`, or `CurrentQueryID` and `CurrentQueryState`, set and cached. -/
def setQuery (state : Option Text) (queryID : ℤ) : World :=
  w.visitSet { v with currentQueryState := state, currentQueryID := queryID }

def logout : World := w.visitSet { v with userGuid := none, userID := 0 }

/-- The last steps of a sign-in: the user is written into the visit's row, and `f` of the row into
the cache. -/
def signInVisit (s : SignIn) (t : ℤ × Option Text × Option Text) (u : UserRow)
    (f : DBVisit → DBVisit) : World × Except Exn Unit :=
  match s.visitUpdate with
  | .error e => (w, .error e)
  | .ok _ =>
    let db := w.db.spVisitUpdateIwsUserToken s.now ctx.visitID (some u.id) t.2.2 t.2.1 t.1
    let w' : World := { w with db := db }
    match (db.spVisitGet (some ctx.siteID) (some ctx.visitID)).head? with
    | none => (w', .error .indexOutOfRange)
    | some v' => (w'.visitSet (f v'), .ok ())

def authenticate (s : SignIn) : World × Except Exn Unit :=
  match s.tokens with
  | .error e => (w, .error e)
  | .ok t =>
    let keepCart (v' : DBVisit) : DBVisit := { v' with cart := v.cart }
    if s.userKnown then
      let r := w.db.spUserUpdate ctx s t.1 t.2.2 t.2.1
      let w' : World := { w with db := r.1 }
      match r.2 with
      | none => (w', .error .nullReference)
      | some u => w'.signInVisit ctx s t u keepCart
    else
      match w.db.spUserCreate ctx s t.1 t.2.2 t.2.1 with
      | .error e => (w, .error e)
      | .ok (db, u) => ({ w with db := db } : World).signInVisit ctx s t u keepCart

def userCreate (s : SignIn) : World × Except Exn Unit :=
  match s.tokens with
  | .error e => (w, .error e)
  | .ok t =>
    match w.db.spUserCreate ctx s s.externalID t.2.2 t.2.1 with
    | .error e => (w, .error e)
    | .ok (db, u) => ({ w with db := db } : World).signInVisit ctx s t u fun v' =>
        { v with
          iwsUserID := v'.iwsUserID
          iwsUserToken := v'.iwsUserToken
          iwsUserTokenExpiry := v'.iwsUserTokenExpiry
          storefrontUserToken := v'.storefrontUserToken
          userGuid := v'.userGuid
          userID := v'.userID }

def updatePassword (p : PasswordChange) : World × Except Exn Unit :=
  match p.storefrontUserToken with
  | .error e => (w, .error e)
  | .ok storefrontUserToken =>
    let db := w.db.spVisitUpdateIwsUserToken p.now ctx.visitID (some v.userID) none
      storefrontUserToken (v.iwsUserID.getD 0)
    let w' : World := { w with db := db }
    match (db.spVisitGet (some ctx.siteID) (some ctx.visitID)).head?, ctx.dbUser with
    | none, _ => (w', .error .indexOutOfRange)
    | some _, none => (w', .error .nullReference)
    | some v', some _ =>
      match p.iwsUserToken with
      | .error e => (w', .error e)
      | .ok iwsUserToken =>
        let db := db.spVisitUpdateIwsUserToken p.now ctx.visitID (some v.userID) iwsUserToken none
          (v.iwsUserID.getD 0)
        let w' : World := { w with db := db }
        match (db.spVisitGet (some ctx.siteID) (some ctx.visitID)).head? with
        | none => (w', .error .indexOutOfRange)
        | some v'' =>
          (w'.visitSet
            { v with
              storefrontUserToken := v'.storefrontUserToken
              iwsUserToken := iwsUserToken
              iwsUserTokenExpiry := v''.iwsUserTokenExpiry }, .ok ())

end Model

end World

end AciX
