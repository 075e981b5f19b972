import AciX.Sql.Sequence
import AciX.Visit.Get

/-!
# Creating a visit

`spVisitCreate` looks for a visit of the last half hour from the same address and browser, loads its
identity, overrides the user by the one a `UserGuid` names, and only then decides whether the visit
may be reused. If not, its identity is left behind in the variables. `oneIdentity_iff` says when the
row returned and the row stored still describe the identity the visit should have.
-/

namespace AciX

open List Sql

/-- The arguments of `spVisitCreate` as its first steps resolve them: the site from the landing
page, the address, the browser and the robot. -/
structure VisitArgs where
  now : ℤ
  siteID : ℕ
  ipAddress : ℤ
  userAgentID : ℤ
  robotID : Option ℤ := none
  referCode : Option Text := none
  userGuid : Option Guid := none
  newGuid : Guid

structure Identity where
  userID : Option ℤ := none
  iwsUserID : Option ℤ := none
  iwsUserToken : Option Text := none
  storefrontUserToken : Option Text := none
  deriving DecidableEq

def VisitRow.identity (v : VisitRow) : Identity where
  userID := v.userID
  iwsUserID := v.iwsUserID
  iwsUserToken := v.iwsUserToken
  storefrontUserToken := v.storefrontUserToken

structure CreatedVisit where
  visitID : ℤ
  visitGuid : Guid
  siteID : ℕ
  identity : Identity
  userGuid : Option Guid
  referCode : Option Text
  iwsUserTokenExpiry : Option ℤ
  robotID : ℤ

def CreatedVisit.read (r : CreatedVisit) : DBVisit where
  visitID := r.visitID
  visitGuid := r.visitGuid
  siteID := r.siteID
  userID := r.identity.userID.getD 0
  userGuid := r.userGuid
  referCode := r.referCode
  iwsUserToken := r.identity.iwsUserToken
  iwsUserTokenExpiry := r.iwsUserTokenExpiry
  iwsUserID := r.identity.iwsUserID
  storefrontUserToken := r.identity.storefrontUserToken
  robotID := r.robotID

namespace Db

section Model

variable (db : Db) (a : VisitArgs)

def existingVisit : Option VisitRow :=
  selectLast (fun v => v.siteID = a.siteID && v.ipAddress = a.ipAddress &&
    v.userAgentID = a.userAgentID && a.now - 1800000 ≤ v.dateCreated) db.visits

/-- The user of a given `UserGuid`; the site is not compared. -/
def userByGuid : Option UserRow :=
  a.userGuid.bind fun g => selectLast (·.userGuid = g) db.users

def reusedVisit : Option VisitRow :=
  (db.existingVisit a).filter fun e => a.robotID.getD 0 = e.robotID.getD 0

/-- The identity of the existing visit, as the first `SELECT` leaves it in the variables. -/
def loadedIdentity : Identity := ((db.existingVisit a).map VisitRow.identity).getD {}

def createdIdentity : Identity :=
  match db.userByGuid a with
  | some u => { db.loadedIdentity a with userID := some u.id, iwsUserID := u.externalID }
  | none => db.loadedIdentity a

def siteVisits (siteID : ℕ) : List VisitRow := db.visits.filter (·.siteID = siteID)

def nextVisitID : ℤ :=
  allocate nextValue (fun id => (db.siteVisits a.siteID).any (·.id = id))
    (db.siteVisits a.siteID).length db.visitSequence

def newVisit : VisitRow where
  siteID := a.siteID
  id := db.nextVisitID a
  dateCreated := a.now
  visitGuid := a.newGuid
  userAgentID := a.userAgentID
  ipAddress := a.ipAddress
  useCount := 1
  userID := (db.createdIdentity a).userID
  robotID := a.robotID
  iwsReferCode := a.referCode

def usedAgain (v : VisitRow) : VisitRow :=
  { v with useCount := v.useCount + 1, userID := (db.createdIdentity a).userID.or v.userID }

def createdVisit (visitID : ℤ) (visitGuid : Guid) : CreatedVisit where
  visitID := visitID
  visitGuid := visitGuid
  siteID := a.siteID
  identity := db.createdIdentity a
  userGuid := a.userGuid
  referCode := a.referCode
  iwsUserTokenExpiry := (db.existingVisit a).bind (·.iwsUserTokenExpiry)
  robotID := a.robotID.getD 0

def spVisitCreate : Db × CreatedVisit :=
  match db.reusedVisit a with
  | some e =>
    ({ db with
        visits := db.visits.map fun v =>
          if v.siteID = a.siteID ∧ v.id = e.id then db.usedAgain a v else v },
      db.createdVisit a e.id e.visitGuid)
  | none =>
    ({ db with
        visits := db.visits ++ [db.newVisit a]
        visitSequence := nextValue (db.nextVisitID a) },
      db.createdVisit a (db.nextVisitID a) a.newGuid)

def storedIdentity : Identity :=
  match db.reusedVisit a with
  | some e => { e.identity with userID := (db.createdIdentity a).userID.or e.userID }
  | none => { userID := (db.createdIdentity a).userID }

/-- The primary key of the visits and the range of their sequence; each site has an id left for one
more visit, without which the loop would not end. -/
structure VisitKeys : Prop where
  visits : Sql.Unique (fun v : VisitRow => (v.siteID, v.id)) db.visits
  room : ∀ siteID, (db.siteVisits siteID).length < 4294967296
  sequence : InRange db.visitSequence

def Names (u : UserRow) : Prop :=
  u ∈ db.users ∧ u.siteID = a.siteID ∧ a.userGuid = some u.userGuid

def TokensOf (u : UserRow) (i : Identity) : Prop :=
  (i.iwsUserToken = none ∧ i.storefrontUserToken = none) ∨ ∃ e, db.existingVisit a = some e ∧
    e.userID = some u.id ∧ i.iwsUserToken = e.iwsUserToken ∧
      i.storefrontUserToken = e.storefrontUserToken

/-- `i` is the identity the visit should have: that of the user of the site the `UserGuid` names;
if there is none, that of the visit that is reused; if there is none either, nobody's. -/
def Describes (i : Identity) : Prop :=
  (∃ u, db.Names a u ∧ i.userID = some u.id ∧ i.iwsUserID = u.externalID ∧ db.TokensOf a u i) ∨
    ((∀ u, ¬ db.Names a u) ∧ i = ((db.reusedVisit a).map VisitRow.identity).getD {})

/-- The row returned and the row stored under its id have one identity, the one they should. -/
def OneIdentity : Prop :=
  ∃ v ∈ (db.spVisitCreate a).1.visits, v.siteID = (db.spVisitCreate a).2.siteID ∧
    v.id = (db.spVisitCreate a).2.visitID ∧ v.identity = (db.spVisitCreate a).2.identity ∧
    db.Describes a (db.spVisitCreate a).2.identity

def IdentityFits : Prop :=
  match db.userByGuid a, db.reusedVisit a with
  | none, some _ => True
  | none, none => db.loadedIdentity a = {}
  | some u, some e =>
    e.iwsUserID = u.externalID ∧
      ((∃ u', db.Names a u' ∧ u'.id = u.id ∧ u'.externalID = u.externalID ∧
          (e.userID = some u.id ∨ e.iwsUserToken = none ∧ e.storefrontUserToken = none)) ∨
        ((∀ u', ¬ db.Names a u') ∧ e.userID = some u.id))
  | some u, none =>
    u.externalID = none ∧ (db.loadedIdentity a).iwsUserToken = none ∧
      (db.loadedIdentity a).storefrontUserToken = none ∧
      ∃ u', db.Names a u' ∧ u'.id = u.id ∧ u'.externalID = none

end Model

variable {db : Db} {a : VisitArgs}

theorem reusedVisit_some {e : VisitRow} (h : db.reusedVisit a = some e) :
    db.existingVisit a = some e ∧ e ∈ db.visits ∧ e.siteID = a.siteID := by
  unfold reusedVisit at h
  have hex : db.existingVisit a = some e := (Option.filter_eq_some_iff.1 h).1
  obtain ⟨hm, hp⟩ := selectLast_mem hex
  simp only [Bool.and_eq_true, decide_eq_true_eq] at hp
  exact ⟨hex, hm, hp.1.1.1⟩

theorem not_names_of_userByGuid (h : db.userByGuid a = none) (u : UserRow) : ¬ db.Names a u := by
  rintro ⟨hm, -, hg⟩
  rw [userByGuid, hg, Option.bind_some, selectLast_none] at h
  simpa using h u hm

theorem nextVisitID_free (hk : db.VisitKeys) {v : VisitRow} (hv : v ∈ db.visits)
    (hs : v.siteID = a.siteID) : v.id ≠ db.nextVisitID a := by
  have htaken : ∀ id, (db.siteVisits a.siteID).any (·.id = id) = true →
      id ∈ (db.siteVisits a.siteID).map (·.id) := by
    intro id hid
    simp only [any_eq_true, decide_eq_true_eq] at hid
    obtain ⟨v, hv, rfl⟩ := hid
    exact mem_map_of_mem hv
  have hfree : (db.siteVisits a.siteID).any (·.id = db.nextVisitID a) = false :=
    not_taken_allocate htaken (length_map _).le
      (iterate_nextValue_inj hk.sequence (hk.room a.siteID))
  intro hid
  simp only [siteVisits, any_eq_false, mem_filter, decide_eq_true_eq] at hfree
  exact hfree v ⟨hv, hs⟩ hid

theorem spVisitCreate_keys (hk : db.VisitKeys) :
    Sql.Unique (fun v : VisitRow => (v.siteID, v.id)) (db.spVisitCreate a).1.visits ∧
      InRange (db.spVisitCreate a).1.visitSequence := by
  unfold spVisitCreate
  rcases db.reusedVisit a with _ | e
  · refine ⟨?_, ?_⟩
    · refine hk.visits.append (nodup_singleton _) fun v hv v' hv' h => ?_
      obtain rfl := mem_singleton.1 hv'
      simp only [Prod.mk.injEq] at h
      exact nextVisitID_free hk hv h.1 h.2
    · have hnext : InRange (db.nextVisitID a) :=
        allocate_of_step (fun _ h => h.nextValue) hk.sequence
      exact hnext.nextValue
  · refine ⟨?_, hk.sequence⟩
    have hkeys : (fun v : VisitRow => (v.siteID, v.id)) ∘
        (fun v => if v.siteID = a.siteID ∧ v.id = e.id then db.usedAgain a v else v)
          = fun v => (v.siteID, v.id) := by
      funext v
      dsimp only [Function.comp_apply]
      split_ifs <;> rfl
    show ((db.visits.map _).map _).Nodup
    rw [map_map, hkeys]
    exact hk.visits

theorem mem_spVisitCreate (hv : Sql.Unique (fun v : VisitRow => (v.siteID, v.id)) db.visits)
    {r : VisitRow} (h : r ∈ (db.spVisitCreate a).1.visits) :
    r ∈ db.visits ∨ (∃ e, db.reusedVisit a = some e ∧ r = db.usedAgain a e) ∨
      (db.reusedVisit a = none ∧ r = db.newVisit a) := by
  unfold spVisitCreate at h
  rcases hr : db.reusedVisit a with _ | e <;> simp only [hr] at h
  · rcases mem_append.1 h with h | h
    · exact .inl h
    · exact .inr (.inr ⟨rfl, mem_singleton.1 h⟩)
  · obtain ⟨-, he, hes⟩ := reusedVisit_some hr
    obtain ⟨v, hvm, rfl⟩ := mem_map.1 h
    split_ifs with hve
    · obtain rfl := hv.eq hvm he (by simp only [hve, hes])
      exact .inr (.inl ⟨v, rfl, rfl⟩)
    · exact .inl hvm

theorem spVisitCreate_rows (db : Db) (a : VisitArgs) :
    (∀ r ∈ db.visits, ∃ r' ∈ (db.spVisitCreate a).1.visits, r'.siteID = r.siteID ∧
      r'.id = r.id ∧ r'.visitGuid = r.visitGuid) ∧
    ∃ r ∈ (db.spVisitCreate a).1.visits, r.siteID = (db.spVisitCreate a).2.siteID ∧
      r.id = (db.spVisitCreate a).2.visitID ∧ r.visitGuid = (db.spVisitCreate a).2.visitGuid := by
  unfold spVisitCreate
  rcases hr : db.reusedVisit a with _ | e
  · exact ⟨fun r hr => ⟨r, mem_append_left _ hr, rfl, rfl, rfl⟩,
      db.newVisit a, mem_append_right _ (mem_singleton_self _), rfl, rfl, rfl⟩
  · obtain ⟨-, he, hes⟩ := reusedVisit_some hr
    refine ⟨fun r hr => ⟨_, mem_map_of_mem hr, ?_⟩,
      db.usedAgain a e, mem_map.2 ⟨e, he, if_pos ⟨hes, rfl⟩⟩, hes, rfl, rfl⟩
    split_ifs <;> exact ⟨rfl, rfl, rfl⟩

theorem stored_iff (hk : db.VisitKeys) {P : Identity → Prop} :
    (∃ v ∈ (db.spVisitCreate a).1.visits, v.siteID = (db.spVisitCreate a).2.siteID ∧
      v.id = (db.spVisitCreate a).2.visitID ∧ P v.identity) ↔ P (db.storedIdentity a) := by
  unfold spVisitCreate storedIdentity
  rcases hr : db.reusedVisit a with _ | e
  · dsimp only [createdVisit]
    refine ⟨fun ⟨v, hv, hs, hid, hP⟩ => ?_, fun hP => ?_⟩
    · rcases mem_append.1 hv with hv | hv
      · exact absurd hid (nextVisitID_free hk hv hs)
      · obtain rfl := mem_singleton.1 hv
        exact hP
    · exact ⟨db.newVisit a, mem_append_right _ (mem_singleton_self _), rfl, rfl, hP⟩
  · obtain ⟨-, he, hes⟩ := reusedVisit_some hr
    dsimp only [createdVisit]
    refine ⟨fun ⟨v, hv, hs, hid, hP⟩ => ?_, fun hP => ?_⟩
    · obtain ⟨v₀, hv₀, rfl⟩ := mem_map.1 hv
      by_cases hv : v₀.siteID = a.siteID ∧ v₀.id = e.id
      · rw [if_pos hv] at hP
        obtain rfl := hk.visits.eq hv₀ he (by simp only [hv, hes])
        exact hP
      · rw [if_neg hv] at hs hid
        exact absurd ⟨hs, hid⟩ hv
    · exact ⟨db.usedAgain a e, mem_map.2 ⟨e, he, if_pos ⟨hes, rfl⟩⟩, hes, rfl, hP⟩

theorem loadedIdentity_of_reused {e : VisitRow} (hr : db.reusedVisit a = some e) :
    db.loadedIdentity a = e.identity := by
  rw [loadedIdentity, (reusedVisit_some hr).1]
  rfl

/-- For every content of the tables and all arguments, the row `spVisitCreate` returns and the row
it stores describe the identity the visit should have exactly if the steps fit together. -/
theorem oneIdentity_iff (hk : db.VisitKeys) (a : VisitArgs) :
    db.OneIdentity a ↔ db.IdentityFits a := by
  have hsplit : db.OneIdentity a ↔
      db.storedIdentity a = db.createdIdentity a ∧ db.Describes a (db.createdIdentity a) := by
    have hret : (db.spVisitCreate a).2.identity = db.createdIdentity a := by
      unfold spVisitCreate
      split <;> rfl
    rw [← stored_iff hk (P := fun i => i = db.createdIdentity a ∧
      db.Describes a (db.createdIdentity a)), OneIdentity, hret]
  rw [hsplit]
  unfold IdentityFits Describes storedIdentity createdIdentity
  rcases hu : db.userByGuid a with _ | u <;> rcases hr : db.reusedVisit a with _ | e
  · have hno := not_names_of_userByGuid hu
    refine ⟨fun ⟨_, h⟩ => ?_, fun h => ?_⟩
    · rcases h with ⟨u, hn, -⟩ | ⟨-, h⟩
      · exact absurd hn (hno u)
      · exact h
    · dsimp only at h ⊢
      rw [h]
      exact ⟨rfl, .inr ⟨hno, rfl⟩⟩
  · have hno := not_names_of_userByGuid hu
    refine ⟨fun _ => trivial, fun _ => ?_⟩
    dsimp only
    rw [loadedIdentity_of_reused hr]
    exact ⟨by simp [VisitRow.identity], .inr ⟨hno, rfl⟩⟩
  · dsimp only
    simp only [Identity.mk.injEq, true_and, Option.some.injEq]
    refine ⟨fun ⟨⟨hx, ht, hs⟩, h⟩ => ?_, fun ⟨hx, ht, hs, u', hn, hid, hx'⟩ => ?_⟩
    · rcases h with ⟨u', hn, hid, hx', -⟩ | ⟨-, h⟩
      · exact ⟨hx.symm, ht.symm, hs.symm, u', hn, hid.symm, hx'.symm.trans hx.symm⟩
      · simp at h
    · exact ⟨⟨hx.symm, ht.symm, hs.symm⟩, .inl ⟨u', hn, hid.symm, hx.trans hx'.symm, .inl ⟨ht, hs⟩⟩⟩
  · have hex := (reusedVisit_some hr).1
    dsimp only
    rw [loadedIdentity_of_reused hr]
    simp only [VisitRow.identity, Option.some_or, Identity.mk.injEq, true_and, and_true,
      Option.some.injEq, Option.map_some, Option.getD_some]
    refine and_congr_right fun hx => or_congr (exists_congr fun u' => ?_) (and_congr_right fun _ =>
      ?_)
    · refine ⟨fun ⟨hn, hid, hx', ht⟩ => ⟨hn, hid.symm, hx'.symm, ?_⟩,
        fun ⟨hn, hid, hx', ht⟩ => ⟨hn, hid.symm, hx'.symm, ?_⟩⟩
      · rcases ht with ht | ⟨e', he', heu, -⟩
        · exact .inr ht
        · rw [hex, Option.some.injEq] at he'
          exact .inl (by rw [he', heu, hid])
      · rcases ht with ht | ht
        · exact .inr ⟨e, hex, by rw [ht, hid], rfl, rfl⟩
        · exact .inl ht
    · exact ⟨fun h => h.1.symm, fun h => ⟨h.symm, hx.symm⟩⟩

end Db

def signedIn : VisitRow where
  siteID := 1
  id := 10
  visitGuid := ⟨"0f8fad5b-d9cb-469f-a165-70867728950e".toList, Guid.shape_first⟩
  userAgentID := 2
  ipAddress := 3
  userID := some 7
  iwsUserID := some 700
  iwsUserToken := some "T7".toList
  storefrontUserToken := some "S7".toList

def oneVisit : Db := { visits := [signedIn] }

theorem oneVisit_keys : oneVisit.VisitKeys := by
  refine ⟨by decide, fun siteID => ?_, by decide⟩
  have : (oneVisit.siteVisits siteID).length ≤ 1 := length_filter_le ..
  omega

def again (robotID : Option ℤ) : VisitArgs where
  now := 1000
  siteID := 1
  ipAddress := 3
  userAgentID := 2
  robotID := robotID
  newGuid := ⟨"7c9e6679-7425-40de-944b-e07fc1f90ae7".toList, Guid.shape_second⟩

theorem oneVisit_oneIdentity : oneVisit.OneIdentity (again none) :=
  (Db.oneIdentity_iff oneVisit_keys (again none)).2 trivial

/-- The browser has become known as a robot's: the visit is not reused, and a new one is inserted
for user 7 and returned with the tokens of that user, although no `UserGuid` was given. -/
theorem oneVisit_inherited :
    let r := oneVisit.spVisitCreate (again (some 5))
    oneVisit.VisitKeys ∧ (again (some 5)).userGuid = none ∧ r.2.visitID = 355000000 ∧
    r.2.identity = signedIn.identity ∧
    (r.1.visits.filter (·.id = 355000000)).map VisitRow.identity = [{ userID := some 7 }] ∧
    ¬ oneVisit.OneIdentity (again (some 5)) := by
  intro r
  refine ⟨oneVisit_keys, rfl, by decide, by decide, by decide, fun ⟨v, hv, _, hid, hi, _⟩ => ?_⟩
  have hv : v ∈ [signedIn, oneVisit.newVisit (again (some 5))] := hv
  have hid : v.id = 355000000 := hid
  rcases mem_cons.1 hv with rfl | hv
  · exact absurd hid (by decide)
  · obtain rfl := mem_singleton.1 hv
    exact absurd hi (by decide)

end AciX
