import AciX.User.SignIn

/-!
# The token of a visit

`Visit` has the key `(SiteID, ID)`, but the `UPDATE` of `spVisitUpdateIwsUserToken` compares the
`ID` only. So the update stays on its row if no other site has a visit of the same number. A
parameter that is `NULL` keeps the token of the row, but the expiry is always a day from now
(`tokenUpdate_on_its_visit_iff`).
-/

namespace AciX

open Sql

structure DatedVisit extends VisitRow where
  dateModified : ℤ

structure TokenUpdate where
  siteID : ℕ
  visitID : ℤ
  userID : Option ℤ
  iwsUserToken : Option Text := none
  storefrontUserToken : Option Text := none
  iwsUserID : Option ℤ
  returnVisit : Bool := true

namespace TokenUpdate

section Model

variable (p : TokenUpdate) (now : ℤ)

def Names (v : DatedVisit) : Prop := v.siteID = p.siteID ∧ v.id = p.visitID

def tomorrow : ℤ := now + 86400000

def write (v : DatedVisit) : DatedVisit :=
  { v with
    userID := p.userID
    iwsUserToken := (p.iwsUserToken.map (varchar 50)).or v.iwsUserToken
    iwsUserTokenExpiry := some (tomorrow now)
    iwsUserID := p.iwsUserID.or v.iwsUserID
    storefrontUserToken := (p.storefrontUserToken.map (varchar 50)).or v.storefrontUserToken
    dateModified := now }

def update (v : DatedVisit) : DatedVisit := if v.id = p.visitID then p.write now v else v

def spVisitUpdateIwsUserToken (db : Db) (visits : List DatedVisit) :
    List DatedVisit × List DBVisit :=
  let visits := visits.map (p.update now)
  (visits,
    if p.returnVisit then
      { db with visits := visits.map DatedVisit.toVisitRow }.spVisitGet (some p.siteID)
        (some p.visitID)
    else [])

end Model

section Write

variable {p : TokenUpdate} {now : ℤ} {v : DatedVisit}

@[simp] theorem siteID_update : (p.update now v).siteID = v.siteID := by
  unfold update
  split_ifs <;> rfl

@[simp] theorem id_update : (p.update now v).id = v.id := by
  unfold update
  split_ifs <;> rfl

theorem update_of_id (h : v.id = p.visitID) : p.update now v = p.write now v := if_pos h

structure Has (p : TokenUpdate) (now : ℤ) (v : DatedVisit) : Prop where
  userID : v.userID = p.userID
  iwsUserToken : ∀ t, p.iwsUserToken = some t → v.iwsUserToken = some (varchar 50 t)
  expiry : v.iwsUserTokenExpiry = some (tomorrow now)
  iwsUserID : ∀ i, p.iwsUserID = some i → v.iwsUserID = some i
  storefrontUserToken : ∀ t, p.storefrontUserToken = some t →
    v.storefrontUserToken = some (varchar 50 t)
  dateModified : v.dateModified = now

theorem or_eq_right_iff {α : Type} {a b : Option α} :
    a.or b = b ↔ ∀ x, a = some x → b = some x := by
  rcases a with _ | a
  · simp
  · simp [eq_comm]

theorem map_or_eq_right_iff {α β : Type} {f : α → β} {a : Option α} {b : Option β} :
    (a.map f).or b = b ↔ ∀ x, a = some x → b = some (f x) := by
  simp [or_eq_right_iff]

theorem write_eq_iff : p.write now v = v ↔ p.Has now v := by
  constructor
  · intro h
    have hvisit := congrArg DatedVisit.toVisitRow h
    exact
      { userID := (congrArg VisitRow.userID hvisit).symm
        iwsUserToken := map_or_eq_right_iff.1 (congrArg VisitRow.iwsUserToken hvisit)
        expiry := (congrArg VisitRow.iwsUserTokenExpiry hvisit).symm
        iwsUserID := or_eq_right_iff.1 (congrArg VisitRow.iwsUserID hvisit)
        storefrontUserToken := map_or_eq_right_iff.1 (congrArg VisitRow.storefrontUserToken hvisit)
        dateModified := (congrArg DatedVisit.dateModified h).symm }
  · rintro ⟨huser, htoken, hexpiry, hid, hstorefront, hdate⟩
    unfold write
    rw [map_or_eq_right_iff.2 htoken, map_or_eq_right_iff.2 hstorefront, or_eq_right_iff.2 hid,
      ← huser, ← hexpiry, ← hdate]

end Write

section Returned

variable {p : TokenUpdate} {now : ℤ} {db : Db} {visits : List DatedVisit} {v : DatedVisit}

def joined (p : TokenUpdate) (db : Db) : List UserRow :=
  db.users.filter fun u => eqNull (some u.id) p.userID

section

variable (hkey : Sql.Unique (fun v : DatedVisit => (v.siteID, v.id)) visits)
include hkey

theorem returned_eq
    (hret : p.returnVisit = true) (hv : v ∈ visits) (hp : p.Names v) :
    (p.spVisitUpdateIwsUserToken now db visits).2 =
      match p.joined db with
      | [] => [Db.readVisit (p.write now v).toVisitRow none]
      | us => us.map fun u => Db.readVisit (p.write now v).toVisitRow (some u) := by
  have hrow : visits.filter (fun v => eqNull (some v.siteID) (some p.siteID) &&
      eqNull (some v.id) (some p.visitID)) = [v] :=
    hkey.filter_eq_singleton hv fun b _ => by simp [hp.1, hp.2]
  have huser : (p.write now v).userID = p.userID := rfl
  simp only [spVisitUpdateIwsUserToken, hret, if_true, Db.spVisitGet, List.filter_map,
    Function.comp_def, siteID_update, id_update, hrow, List.map_cons, List.map_nil,
    update_of_id hp.2, leftJoin, List.flatMap_cons, List.flatMap_nil, List.append_nil, huser,
    joined]
  cases db.users.filter fun u => eqNull (some u.id) p.userID <;> simp

theorem returned_single_iff
    (hret : p.returnVisit = true) (hv : v ∈ visits) (hp : p.Names v) :
    (∃ u, (p.spVisitUpdateIwsUserToken now db visits).2 =
      [Db.readVisit (p.update now v).toVisitRow u]) ↔ (p.joined db).length ≤ 1 := by
  rw [returned_eq hkey hret hv hp, update_of_id hp.2]
  rcases p.joined db with _ | ⟨u, _ | ⟨u', us⟩⟩
  · simp
  · simp
  · simp

end

end Returned

section Statement

variable (p : TokenUpdate) (now : ℤ) (db : Db) (visits : List DatedVisit)

def Extends (old new : Option ℤ) : Prop := ∃ e, new = some e ∧ ∀ o, old = some o → o < e

/-- Only the row of the site and the visit changes, that row is what is returned, and no expiry is
extended without a token. -/
structure OnItsVisit : Prop where
  others : List.Forall₂ (fun v v' => ¬p.Names v → v' = v) visits
    (p.spVisitUpdateIwsUserToken now db visits).1
  returned : p.returnVisit = true → List.Forall₂ (fun v v' : DatedVisit => p.Names v →
    ∃ u, (p.spVisitUpdateIwsUserToken now db visits).2 = [Db.readVisit v'.toVisitRow u]) visits
    (p.spVisitUpdateIwsUserToken now db visits).1
  expiry : p.iwsUserToken = none → List.Forall₂ (fun v v' : DatedVisit =>
    ¬Extends v.iwsUserTokenExpiry v'.iwsUserTokenExpiry) visits
    (p.spVisitUpdateIwsUserToken now db visits).1

/-- No other site has a visit of that number, unless with the values written. At most one user has
the `UserID`. A token is given, or the row does not expire within a day. -/
structure Single : Prop where
  others : ∀ v ∈ visits, v.id = p.visitID → v.siteID ≠ p.siteID → p.Has now v
  user : p.returnVisit = true → (∃ v ∈ visits, p.Names v) → (p.joined db).length ≤ 1
  expiry : p.iwsUserToken = none → ∀ v ∈ visits, p.Names v →
    ∃ o, v.iwsUserTokenExpiry = some o ∧ tomorrow now ≤ o

variable {p now db visits}

theorem forall₂_update {R : DatedVisit → DatedVisit → Prop} :
    List.Forall₂ R visits (p.spVisitUpdateIwsUserToken now db visits).1 ↔
      ∀ v ∈ visits, R v (p.update now v) := by
  show List.Forall₂ R visits (visits.map (p.update now)) ↔ _
  rw [List.forall₂_map_right_iff, List.forall₂_same]

theorem not_extends_tomorrow {old : Option ℤ} :
    ¬Extends old (some (tomorrow now)) ↔ ∃ o, old = some o ∧ tomorrow now ≤ o := by
  rcases old with _ | o
  · simp [Extends]
  · simp [Extends]

theorem not_extends_self {old : Option ℤ} : ¬Extends old old := by
  rintro ⟨e, rfl, h⟩
  exact lt_irrefl e (h e rfl)

/-- The update changes and returns the row of its visit only, exactly under the condition `Single`.
-/
theorem tokenUpdate_on_its_visit_iff
    (hkey : Sql.Unique (fun v : DatedVisit => (v.siteID, v.id)) visits) :
    p.OnItsVisit now db visits ↔ p.Single now db visits := by
  constructor
  · rintro ⟨hothers, hreturned, hexpiry⟩
    refine ⟨fun v hv hid hsite => ?_, ?_, fun ht v hv hp => ?_⟩
    · have heq := forall₂_update.1 hothers v hv fun hp => hsite hp.1
      rw [update_of_id hid] at heq
      exact write_eq_iff.1 heq
    · rintro hret ⟨v, hv, hp⟩
      exact (returned_single_iff hkey hret hv hp).1 (forall₂_update.1 (hreturned hret) v hv hp)
    · have hnot := forall₂_update.1 (hexpiry ht) v hv
      rw [update_of_id hp.2] at hnot
      exact not_extends_tomorrow.1 hnot
  · rintro ⟨hothers, huser, hexpiry⟩
    have hsame : ∀ v ∈ visits, ¬p.Names v → p.update now v = v := by
      intro v hv hp
      by_cases hid : v.id = p.visitID
      · rw [update_of_id hid]
        exact write_eq_iff.2 (hothers v hv hid fun hsite => hp ⟨hsite, hid⟩)
      · exact if_neg hid
    refine ⟨forall₂_update.2 hsame, fun hret => forall₂_update.2 fun v hv hp => ?_,
      fun ht => forall₂_update.2 fun v hv => ?_⟩
    · exact (returned_single_iff hkey hret hv hp).2 (huser hret ⟨v, hv, hp⟩)
    · by_cases hp : p.Names v
      · rw [update_of_id hp.2]
        exact not_extends_tomorrow.2 (hexpiry ht v hv hp)
      · rw [hsame v hv hp]
        exact not_extends_self

end Statement

def twoSites : List DatedVisit :=
  [⟨signedIn, 0⟩, ⟨{ signedIn with siteID := 2, userID := none, iwsUserToken := none }, 0⟩]

def newToken : TokenUpdate where
  siteID := 1
  visitID := 10
  userID := some 7
  iwsUserToken := some "T8".toList
  iwsUserID := some 700

theorem newToken_on_its_visit : newToken.OnItsVisit 0 {} [⟨signedIn, 0⟩] := by
  refine (tokenUpdate_on_its_visit_iff (by simp [Sql.Unique])).2 ⟨?_, ?_, ?_⟩
  · simp [newToken, signedIn]
  · simp [joined]
  · simp [newToken]

/-- The other site's visit is signed in with the token as well. -/
theorem newToken_on_both_sites :
    Sql.Unique (fun v : DatedVisit => (v.siteID, v.id)) twoSites ∧
      ¬newToken.OnItsVisit 0 {} twoSites := by
  refine ⟨by decide, fun h => ?_⟩
  have heq := forall₂_update.1 h.others _ (List.mem_cons_of_mem _ List.mem_cons_self)
    (by simp [Names, newToken])
  have htoken := congrArg (·.iwsUserToken) heq
  cases htoken

end TokenUpdate

end AciX
