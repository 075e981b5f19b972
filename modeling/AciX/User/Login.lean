import AciX.User.Cache
import AciX.User.SignIn

/-!
# The user a login resolves to

`User.Authenticate` looks the user up by email address to decide between an update and a creation.
But the update then selects by the storefront's id, and the creation refuses an id that the site
has. So the login resolves to the one user with that id exactly if the two ways of looking agree on
whether there is one (`resolved_iff`).
-/

namespace AciX

open List Sql

namespace World

section Model

variable (w : World) (emails : Store Text UserRow) (ctx : CallContext) (v : DBVisit)

/-- `User.Authenticate` with its lookup in `SiteUserCacheByEmailAddress`, the first value. -/
def login (s : SignIn) : Store Text UserRow × World × Except Exn Unit :=
  match s.tokens with
  | .error e => (emails, w, .error e)
  | .ok _ =>
    let r := (Users.siteUserCacheByEmailAddress id w.db.users ctx.siteID).get true s.emailAddress
      emails
    (r.1, w.authenticate ctx v { s with userKnown := r.2.isSome })

structure IsUser (ctx : CallContext) (x : ℤ) (users : List UserRow) (u : UserRow) : Prop where
  mem : u ∈ users
  siteID : u.siteID = ctx.siteID
  externalID : u.externalID = some x
  only : ∀ u' ∈ users, u'.siteID = ctx.siteID → u'.externalID = some x → u'.id = u.id

def HasUser (ctx : CallContext) (x : ℤ) (users : List UserRow) : Prop :=
  ∃ u ∈ users, u.siteID = ctx.siteID ∧ u.externalID = some x

/-- No two users of a site have the same external id. -/
def UniqueExternalIDs (users : List UserRow) : Prop :=
  ∀ u ∈ users, ∀ u' ∈ users, u.siteID = u'.siteID → u.externalID ≠ none →
    u.externalID = u'.externalID → u = u'

/-- The login `r` succeeded, the visit's row and its cached copy have the user with the external id
`x`, and none was created if there was one. -/
structure Resolved (x : ℤ) (r : World × Except Exn Unit) : Prop where
  ok : r.2 = .ok ()
  user : ∃ u, IsUser ctx x r.1.db.users u ∧
    (∀ row ∈ r.1.db.visits, row.id = ctx.visitID → row.userID = some u.id) ∧
    ∃ v', r.1.visitCache v'.visitGuid.text = some (.entity v') ∧ v'.visitID = ctx.visitID ∧
      v'.siteID = ctx.siteID ∧ v'.userID = u.id
  created : HasUser ctx x w.db.users → r.1.db.users.map (·.id) = w.db.users.map (·.id)

def KnownByEmailAddress (s : SignIn) (users : List UserRow) : Prop :=
  ∃ u ∈ users, Users.hasEmailAddress id ctx.siteID s.emailAddress u = true

end Model

variable {w : World} {emails : Store Text UserRow} {ctx : CallContext} {v : DBVisit} {s : SignIn}

theorem lookup_eq (hk : Users.Keys id w.db.users) (k : Text) :
    ((Users.siteUserCacheByEmailAddress id w.db.users ctx.siteID).get true k emails).2 =
      Users.userByEmailAddress id w.db.users ctx.siteID k := by
  simp only [EntityCache.get, if_true, EntityCache.remove_self, hk.getFromDB_cons]
  cases Users.userByEmailAddress id w.db.users ctx.siteID k <;> rfl

theorem spVisitGet_userID {db : Db} {siteID : ℕ} {visitID userID : ℤ}
    (hrows : ∀ r ∈ db.visits, r.id = visitID → r.userID = some userID)
    (hu : ∃ u ∈ db.users, u.id = userID) {v' : DBVisit}
    (hv : v' ∈ db.spVisitGet (some siteID) (some visitID)) : v'.userID = userID := by
  obtain ⟨⟨r, u?⟩, hr, rfl⟩ := mem_map.1 hv
  have hm := mem_leftJoin hr
  simp only [mem_filter, Bool.and_eq_true, eqNull_some, decide_eq_true_eq] at hm
  have huser := hrows r hm.1 hm.2.2
  rcases u? with _ | u
  · obtain ⟨u, hu, hid⟩ := hu
    have := on_of_none_mem_leftJoin hr hu
    simp [huser, hid] at this
  · have hon := on_of_mem_leftJoin hr
    have hid : u.id = userID := by simpa [huser] using hon
    exact hid

theorem exists_mem_spVisitGet {db : Db} {r : VisitRow} (hr : r ∈ db.visits) {u : UserRow}
    (hu : u ∈ db.users) (huser : r.userID = some u.id) :
    ∃ v', v' ∈ db.spVisitGet (some r.siteID) (some r.id) :=
  ⟨_, mem_map.2 ⟨(r, some u), some_mem_leftJoin (by simp [hr]) hu (by simp [huser]), rfl⟩⟩

theorem signInVisit_spec {row : VisitRow} (hrow : row ∈ w.db.visits)
    (hs : row.siteID = ctx.siteID) (hid : row.id = ctx.visitID)
    (hu : s.visitUpdate = .ok ()) {t : ℤ × Option Text × Option Text} {u : UserRow}
    (hmem : u ∈ w.db.users) {f : DBVisit → DBVisit} :
    (w.signInVisit ctx s t u f).2 = .ok () ∧
    (w.signInVisit ctx s t u f).1.db.users = w.db.users ∧
    (∀ row ∈ (w.signInVisit ctx s t u f).1.db.visits, row.id = ctx.visitID →
      row.userID = some u.id) ∧
    ∃ v', (w.signInVisit ctx s t u f).1.visitCache (f v').visitGuid.text = some (.entity (f v')) ∧
      v'.visitID = ctx.visitID ∧ v'.siteID = ctx.siteID ∧ v'.userID = u.id := by
  have hdb : ∀ r ∈ (w.db.spVisitUpdateIwsUserToken s.now ctx.visitID (some u.id) t.2.2 t.2.1
      t.1).visits, r.id = ctx.visitID → r.userID = some u.id := by
    intro r hr hrid
    obtain ⟨r₀, -, rfl⟩ := mem_map.1 hr
    unfold Db.withToken at hrid ⊢
    split_ifs at hrid ⊢ with h
    · rfl
    · exact absurd hrid h
  have hmem' : Db.withToken s.now ctx.visitID (some u.id) t.2.2 t.2.1 t.1 row ∈
      (w.db.spVisitUpdateIwsUserToken s.now ctx.visitID (some u.id) t.2.2 t.2.1 t.1).visits :=
    mem_map_of_mem hrow
  have hkeys : (Db.withToken s.now ctx.visitID (some u.id)
    t.2.2 t.2.1 t.1 row).siteID = ctx.siteID ∧
      (Db.withToken s.now ctx.visitID (some u.id) t.2.2 t.2.1 t.1 row).id = ctx.visitID := by
    simp [Db.withToken, hid, hs]
  have husers : (w.db.spVisitUpdateIwsUserToken s.now ctx.visitID (some u.id)
    t.2.2 t.2.1 t.1).users =
      w.db.users := rfl
  simp only [signInVisit, hu]
  generalize w.db.spVisitUpdateIwsUserToken s.now ctx.visitID (some u.id) t.2.2 t.2.1 t.1 = db
    at hdb hmem' husers ⊢
  have hex := exists_mem_spVisitGet hmem' (husers ▸ hmem) (hdb _ hmem' hkeys.2)
  rw [hkeys.1, hkeys.2] at hex
  obtain ⟨v', vs, hvs⟩ := exists_cons_of_ne_nil (ne_nil_of_mem hex.choose_spec)
  have hv' : v' ∈ db.spVisitGet (some ctx.siteID) (some ctx.visitID) := by simp [hvs]
  obtain ⟨r, -, hsite, hvid, hread⟩ := Db.mem_spVisitGet hv'
  have huser := spVisitGet_userID hdb ⟨u, husers ▸ hmem, rfl⟩ hv'
  simp only [hvs, head?_cons]
  refine ⟨trivial, husers, hdb, v', visitSet_visitCache_self (f v'), ?_, ?_, huser⟩
  · exact hread.visitID.trans (Option.some.inj hvid).symm
  · exact hread.siteID.trans (Option.some.inj hsite).symm

section Users

variable {db : Db} {x : ℤ} {iwsUserToken storefrontUserToken : Option Text} (userID : ℤ)
  (u : UserRow)

theorem hasUser_iff : HasUser ctx x db.users ↔ (db.users.any fun u => u.siteID = ctx.siteID &&
    eqNull u.externalID (some x)) = true := by
  simp [HasUser, eqNull_iff]

theorem spUserCreate_of_hasUser (h : HasUser ctx x db.users) :
    db.spUserCreate ctx s x iwsUserToken storefrontUserToken = .error .sql :=
  if_pos (hasUser_iff.1 h)

theorem spUserCreate_spec (h : ¬ HasUser ctx x db.users) : ∃ db' u,
    db.spUserCreate ctx s x iwsUserToken storefrontUserToken = .ok (db', u) ∧
      IsUser ctx x db'.users u := by
  refine ⟨_, _, if_neg fun hany => h (hasUser_iff.2 hany), ?_⟩
  refine ⟨mem_append_right _ (mem_singleton_self _), rfl, rfl, fun u' hu' hs hx => ?_⟩
  rcases mem_append.1 hu' with hu' | hu'
  · exact absurd ⟨u', hu', hs, hx⟩ h
  · rw [mem_singleton.1 hu']

theorem spUserUpdate_of_not_hasUser (h : ¬ HasUser ctx x db.users) :
    (db.spUserUpdate ctx s x iwsUserToken storefrontUserToken).2 = none := by
  have hnone : selectLast (fun u => u.siteID = ctx.siteID &&
      eqNull u.externalID (some x)) db.users = none := by
    rw [selectLast_none]
    intro u hu
    rw [← Bool.not_eq_true]
    exact fun hp => h (hasUser_iff.2 (any_eq_true.2 ⟨u, hu, hp⟩))
  simp [Db.spUserUpdate, hnone]

def withLogin (s : SignIn) (x userID : ℤ) (u : UserRow) : UserRow :=
  if u.id = userID then
    { u with hasValidPaymentMethod := s.hasValidPaymentMethod, externalID := some x }
  else u

theorem withLogin_id : (withLogin s x userID u).id = u.id := by
  unfold withLogin
  split_ifs <;> rfl

theorem withLogin_siteID : (withLogin s x userID u).siteID = u.siteID := by
  unfold withLogin
  split_ifs <;> rfl

theorem spUserUpdate_eq {userID : ℤ} (h : (selectLast (fun u => u.siteID = ctx.siteID &&
      eqNull u.externalID (some x)) db.users).map (·.id) = some userID) :
    (db.spUserUpdate ctx s x iwsUserToken storefrontUserToken).1.users =
      db.users.map (withLogin s x userID) ∧
    (db.spUserUpdate ctx s x iwsUserToken storefrontUserToken).2 =
      (db.users.map (withLogin s x userID)).find? fun u => u.id = userID := by
  simp only [Db.spUserUpdate, h, eqNull_some, decide_eq_true_eq]
  refine ⟨?_, rfl⟩
  split_ifs <;> rfl

theorem spUserUpdate_spec (hext : UniqueExternalIDs db.users) (h : HasUser ctx x db.users) :
    ∃ u u', (db.spUserUpdate ctx s x iwsUserToken storefrontUserToken).2 = some u' ∧
      u' ∈ (db.spUserUpdate ctx s x iwsUserToken storefrontUserToken).1.users ∧ u'.id = u.id ∧
      IsUser ctx x (db.spUserUpdate ctx s x iwsUserToken storefrontUserToken).1.users u ∧
      (db.spUserUpdate ctx s x iwsUserToken storefrontUserToken).1.users.map (·.id) =
        db.users.map (·.id) := by
  obtain ⟨u₁, hu₁, hs₁, hx₁⟩ := h
  obtain ⟨u₀, hsel⟩ := selectLast_isSome
    (p := fun u : UserRow => u.siteID = ctx.siteID && eqNull u.externalID (some x)) hu₁
    (by simp [hs₁, hx₁])
  obtain ⟨hu₀, hp⟩ := selectLast_mem hsel
  simp only [Bool.and_eq_true, decide_eq_true_eq] at hp
  have hx₀ : u₀.externalID = some x := by simpa [eqNull_iff] using hp.2
  obtain ⟨husers, hret⟩ : (db.spUserUpdate ctx s x iwsUserToken storefrontUserToken).1.users =
      db.users.map (withLogin s x u₀.id) ∧ _ := spUserUpdate_eq (by rw [hsel]; rfl)
  have hmem : withLogin s x u₀.id u₀ ∈ db.users.map (withLogin s x u₀.id) := mem_map_of_mem hu₀
  obtain ⟨u', hu'⟩ := Option.isSome_iff_exists.1 (find?_isSome.2
    ⟨_, hmem, by simp [withLogin_id]⟩ :
      ((db.users.map (withLogin s x u₀.id)).find? fun u => u.id = u₀.id).isSome)
  refine ⟨withLogin s x u₀.id u₀, u', hret.trans hu', ?_, ?_, ?_, ?_⟩
  · rw [husers]
    exact mem_of_find?_eq_some hu'
  · rw [withLogin_id]
    simpa using find?_some hu'
  · rw [husers]
    refine ⟨hmem, (withLogin_siteID _ _).trans hp.1, by simp [withLogin], fun u'' hu'' hs hx => ?_⟩
    obtain ⟨a, ha, rfl⟩ := mem_map.1 hu''
    rw [withLogin_siteID] at hs
    rw [withLogin_id, withLogin_id]
    by_cases haid : a.id = u₀.id
    · exact haid
    · rw [withLogin, if_neg haid] at hx
      rw [hext a ha u₀ hu₀ (hs.trans hp.1.symm) (by simp [hx]) (hx.trans hx₀.symm)]
  · rw [husers, map_map]
    exact map_congr_left fun u _ => withLogin_id _ _

end Users

theorem known_iff : KnownByEmailAddress ctx s w.db.users ↔
    (Users.userByEmailAddress id w.db.users ctx.siteID s.emailAddress).isSome = true := by
  simp only [KnownByEmailAddress, Users.userByEmailAddress, find?_isSome]

theorem Resolved.of_signInVisit {w₁ : World} {x : ℤ} {u u' : UserRow}
    (hu : IsUser ctx x w₁.db.users u) (hmem : u' ∈ w₁.db.users) (hidu : u'.id = u.id)
    (hvisit : ∃ row ∈ w₁.db.visits, row.siteID = ctx.siteID ∧ row.id = ctx.visitID)
    (hupdate : s.visitUpdate = .ok ())
    (hcreated : HasUser ctx x w.db.users → w₁.db.users.map (·.id) = w.db.users.map (·.id))
    (t : ℤ × Option Text × Option Text) :
    w.Resolved ctx x (w₁.signInVisit ctx s t u' fun v' => { v' with cart := v.cart }) := by
  obtain ⟨row, hrow, hs, hid⟩ := hvisit
  obtain ⟨hok, husers, hrows, v', hcache, hvid, hsite, huid⟩ :=
    signInVisit_spec (s := s) (t := t) (f := fun v' => { v' with cart := v.cart }) hrow hs hid
      hupdate hmem
  rw [hidu] at hrows huid
  exact ⟨hok, ⟨u, husers ▸ hu, hrows, _, hcache, hvid, hsite, huid⟩, fun h => husers ▸ hcreated h⟩

theorem SameVisits.exists_row {db db' : Db} (h : Db.SameVisits ctx.visitID db db')
    (hvisit : ∃ row ∈ db.visits, row.siteID = ctx.siteID ∧ row.id = ctx.visitID) :
    ∃ row ∈ db'.visits, row.siteID = ctx.siteID ∧ row.id = ctx.visitID := by
  obtain ⟨row, hrow, hs, hid⟩ := hvisit
  obtain ⟨row', hrow', hs', hid', -⟩ := h.mem hrow
  exact ⟨row', hrow', hs'.trans hs, hid'.trans hid⟩

section Decision

variable {x : ℤ} {tokens : Option Text × Option Text}

theorem resolved_of_known (hknown : s.userKnown = true) (htokens : s.tokens = .ok (x, tokens))
    (hupdate : s.visitUpdate = .ok ())
    (hvisit : ∃ row ∈ w.db.visits, row.siteID = ctx.siteID ∧ row.id = ctx.visitID)
    (hext : UniqueExternalIDs w.db.users) :
    w.Resolved ctx x (w.authenticate ctx v s) ↔ HasUser ctx x w.db.users := by
  simp only [authenticate, htokens, hknown, if_true]
  by_cases huser : HasUser ctx x w.db.users
  · refine iff_of_true ?_ huser
    obtain ⟨u, u', hret, hmem, hidu, hu, hids⟩ := spUserUpdate_spec hext huser
    rw [hret]
    exact Resolved.of_signInVisit hu hmem hidu
      (SameVisits.exists_row (Db.sameVisits_userUpdate ..) hvisit) hupdate (fun _ => hids) _
  · refine iff_of_false (fun h => ?_) huser
    have hok := h.ok
    rw [spUserUpdate_of_not_hasUser huser] at hok
    cases hok

theorem resolved_of_unknown (hknown : s.userKnown = false) (htokens : s.tokens = .ok (x, tokens))
    (hupdate : s.visitUpdate = .ok ())
    (hvisit : ∃ row ∈ w.db.visits, row.siteID = ctx.siteID ∧ row.id = ctx.visitID) :
    w.Resolved ctx x (w.authenticate ctx v s) ↔ ¬ HasUser ctx x w.db.users := by
  simp only [authenticate, htokens, hknown, Bool.false_eq_true, if_false]
  by_cases huser : HasUser ctx x w.db.users
  · refine iff_of_false (fun h => ?_) (not_not_intro huser)
    have hok := h.ok
    rw [spUserCreate_of_hasUser huser] at hok
    cases hok
  · refine iff_of_true ?_ huser
    obtain ⟨db', u, hcreate, hu⟩ := spUserCreate_spec huser
    rw [hcreate]
    exact Resolved.of_signInVisit hu hu.mem rfl
      (SameVisits.exists_row (Db.sameVisits_userCreate hcreate) hvisit) hupdate
      (fun h => absurd h huser) _

/-- The login ends at the user of the storefront's id exactly if the site knows the e-mail address
and this id both or neither. -/
theorem resolved_iff (hk : Users.Keys id w.db.users) (htokens : s.tokens = .ok (x, tokens))
    (hupdate : s.visitUpdate = .ok ())
    (hvisit : ∃ row ∈ w.db.visits, row.siteID = ctx.siteID ∧ row.id = ctx.visitID)
    (hext : UniqueExternalIDs w.db.users) :
    w.Resolved ctx x (w.login emails ctx v s).2 ↔
      (KnownByEmailAddress ctx s w.db.users ↔ HasUser ctx x w.db.users) := by
  have hlogin : (w.login emails ctx v s).2 = w.authenticate ctx v { s with userKnown :=
      (Users.userByEmailAddress id w.db.users ctx.siteID s.emailAddress).isSome } := by
    simp only [login, htokens, lookup_eq hk]
  rw [hlogin]
  by_cases hknown : KnownByEmailAddress ctx s w.db.users
  · rw [known_iff.1 hknown, iff_true_left hknown]
    exact resolved_of_known rfl htokens hupdate hvisit hext
  · rw [iff_false_left hknown]
    rw [known_iff, Bool.not_eq_true] at hknown
    rw [hknown]
    exact resolved_of_unknown rfl htokens hupdate hvisit

def oneUser : World where
  db :=
    { oneVisit with
      users := [{
        siteID := 1
        id := 7
        userGuid := signedIn.visitGuid
        externalID := some 700
        emailAddress := some "a@x".toList }] }
  orderCache := fun _ _ => none
  visitCache := fun _ => none

def credentials (x : ℤ) (emailAddress : Text) : SignIn where
  tokens := .ok (x, some "S".toList, some "T".toList)
  emailAddress := emailAddress
  newGuid := signedIn.visitGuid

def visitor : CallContext := { siteID := 1, visitID := 10 }

def visitorVisit : DBVisit := { visitID := 10, visitGuid := signedIn.visitGuid, siteID := 1 }

theorem oneUser_keys : Users.Keys id oneUser.db.users :=
  ⟨by decide, by decide, by decide⟩

/-- The user 700 logs in with the address they have changed to, and the user 701 with the address
that the site has for 700. -/
theorem oneUser_unresolved :
    ¬ oneUser.Resolved visitor 700 (oneUser.login (fun _ => none) visitor visitorVisit
      (credentials 700 "b@x".toList)).2
    ∧ ¬ oneUser.Resolved visitor 701 (oneUser.login (fun _ => none) visitor visitorVisit
      (credentials 701 "a@x".toList)).2 := by
  have h1 : (oneUser.login (fun _ => none) visitor visitorVisit
    (credentials 700 "b@x".toList)).2.2 = .error .sql := rfl
  have h2 : (oneUser.login (fun _ => none) visitor visitorVisit
    (credentials 701 "a@x".toList)).2.2 = .error .nullReference := rfl
  refine ⟨fun h => ?_, fun h => ?_⟩
  · have hok := h.ok
    rw [h1] at hok
    cases hok
  · have hok := h.ok
    rw [h2] at hok
    cases hok

theorem oneUser_resolved : oneUser.Resolved visitor 700 (oneUser.login (fun _ => none) visitor
    visitorVisit (credentials 700 "A@X".toList)).2 := by
  refine (resolved_iff oneUser_keys rfl rfl ⟨signedIn, by decide, rfl, rfl⟩ ?_).2
    (iff_of_true ⟨_, mem_singleton_self _, by decide⟩ ⟨_, mem_singleton_self _, rfl, rfl⟩)
  simp [UniqueExternalIDs, oneUser]

end Decision

end World

end AciX
