import AciX.Order.Get

/-!
# The visit a request runs for

`VisitCache` keeps the visit under the text of the header, and on a miss reads it with
`spVisitGetByToken`, whose parameter converts the text. So one visit may be kept under several keys,
while `Set` writes the one that `VisitGuid.ToString` gives. The cart and the current query are kept
in the cache only (`visitGet_cart`).
-/

namespace AciX

open EntityCache

namespace Db

variable (db : Db)

/-- A row of `spVisitGet`; the user is that of the `LEFT JOIN`, and a `NULL` id is read as 0. -/
def readVisit (v : VisitRow) (u : Option UserRow) : DBVisit :=
  { visitID := v.id
    visitGuid := v.visitGuid
    siteID := v.siteID
    userID := (u.map (·.id)).getD 0
    userGuid := u.map (·.userGuid)
    referCode := v.iwsReferCode
    iwsUserToken := v.iwsUserToken
    iwsUserTokenExpiry := v.iwsUserTokenExpiry
    iwsUserID := v.iwsUserID
    storefrontUserToken := v.storefrontUserToken }

def spVisitGet (siteID : Option ℕ) (visitID : Option ℤ) : List DBVisit :=
  (Sql.leftJoin (fun v u => Sql.eqNull (some u.id) v.userID)
    (db.visits.filter fun v => Sql.eqNull (some v.siteID) siteID && Sql.eqNull (some v.id) visitID)
    db.users).map fun (v, u) => readVisit v u

def spVisitGetByToken (visitGuid : Guid) : List DBVisit :=
  let v := Sql.selectLast (·.visitGuid = visitGuid) db.visits
  db.spVisitGet (v.map (·.siteID)) (v.map (·.id))

/-- `VisitCache`, which only ever looks at the first key; see `visitGet` for a text that does not
convert. -/
def visitCache : EntityCache Text DBVisit where
  getFromDB keys :=
    match keys.head?.bind Guid.parse with
    | some g => (db.spVisitGetByToken g).take 1
    | none => []
  getKey v := v.visitGuid.text

/-- The visit `v` is the row `r` as it is read: without a cart, and with the row's user or none. -/
structure ReadsVisit (r : VisitRow) (v : DBVisit) : Prop where
  siteID : v.siteID = r.siteID
  visitID : v.visitID = r.id
  visitGuid : v.visitGuid = r.visitGuid
  cart : v.cart = none
  userID : v.userID = 0 ∨ r.userID = some v.userID

variable {db}

theorem mem_spVisitGet {siteID : Option ℕ} {visitID : Option ℤ} {v : DBVisit}
    (h : v ∈ db.spVisitGet siteID visitID) :
    ∃ r ∈ db.visits, siteID = some r.siteID ∧ visitID = some r.id ∧ ReadsVisit r v := by
  obtain ⟨⟨r, u⟩, hr, rfl⟩ := List.mem_map.1 h
  have hm := Sql.mem_leftJoin hr
  simp only [List.mem_filter, Bool.and_eq_true, Sql.eqNull_iff] at hm
  obtain ⟨hm, ⟨s, hs, hs'⟩, i, hi, hi'⟩ := hm
  refine ⟨r, hm, by rw [hs, hs'], by rw [hi, hi'], rfl, rfl, rfl, rfl, ?_⟩
  rcases u with _ | u
  · exact .inl rfl
  · have hon := Sql.on_of_mem_leftJoin hr
    obtain ⟨k, hk, hk'⟩ := Sql.eqNull_iff.1 hon
    exact .inr (hk'.trans hk.symm)

theorem mem_spVisitGetByToken (hv : Sql.Unique (fun v : VisitRow => (v.siteID, v.id)) db.visits)
    {g : Guid} {v : DBVisit} (h : v ∈ db.spVisitGetByToken g) :
    ∃ r ∈ db.visits, r.visitGuid = g ∧ ReadsVisit r v := by
  obtain ⟨r, hr, hs, hi, hread⟩ := mem_spVisitGet h
  obtain ⟨r', hr', hs'⟩ := Option.map_eq_some_iff.1 hs
  rw [hr', Option.map_some, Option.some.injEq] at hi
  obtain ⟨hm, hg⟩ := Sql.selectLast_mem hr'
  obtain rfl := hv.eq hr hm (by simp only [hs', hi])
  exact ⟨r, hr, by simpa using hg, hread⟩

end Db

/-- The context of a request whose visit is known; `user` is what the user cache holds for it. -/
def CallContext.ofVisit (user : Option UserRow) : Option DBVisit → CallContext
  | none => { siteID := 0 }
  | some v =>
    { siteID := v.siteID
      visitID := v.visitID
      authorizedUserID := v.userID
      dbVisit := some v
      dbUser := if v.siteID ≠ 0 ∧ v.userID ≠ 0 then user else none }

structure World extends OrderWorld where
  visitCache : Store Text DBVisit

namespace World

variable (w : World)

/-- `Visit.Get`. A text that does not convert fails unless there is an entry under it. -/
def visitGet (key : Text) : World × Except Exn (Option DBVisit) :=
  if w.visitCache key = none ∧ Guid.parse key = none then (w, .error .sql)
  else
    let r := w.db.visitCache.get false key w.visitCache
    ({ w with visitCache := r.1 }, .ok r.2)

def visitSet (v : DBVisit) : World := { w with visitCache := w.db.visitCache.set w.visitCache v }

def sendAsync (visitGuid : Option Text) (user : Option UserRow) : World × Except Exn CallContext :=
  match visitGuid with
  | none => (w, .ok (CallContext.ofVisit user none))
  | some key => ((w.visitGet key).1, (w.visitGet key).2.map (CallContext.ofVisit user))

/-- The visit kept under a text is the one the text denotes, and only the entry `Set` writes has a
cart. -/
structure VisitInv : Prop where
  visits : Sql.Unique (fun v : VisitRow => (v.siteID, v.id)) w.db.visits
  guid : ∀ k v, w.visitCache k = some (.entity v) → Guid.parse k = some v.visitGuid
  cart : ∀ k v, w.visitCache k = some (.entity v) → v.cart ≠ none → k = v.visitGuid.text

variable {w}

theorem visitSet_visitCache (v : DBVisit) : (w.visitSet v).visitCache
    = put w.visitCache v.visitGuid.text (.entity v) := rfl

@[simp] theorem visitSet_visitCache_self (v : DBVisit) :
    (w.visitSet v).visitCache v.visitGuid.text = some (.entity v) :=
  Function.update_self ..

theorem VisitInv.visitSet (hI : w.VisitInv) (v : DBVisit) : (w.visitSet v).VisitInv := by
  refine ⟨hI.visits, fun k v' h => ?_, fun k v' h hc => ?_⟩
  · rcases put_cases h with ⟨rfl, hv⟩ | h
    · cases hv
      exact Guid.parse_text _
    · exact hI.guid k v' h
  · rcases put_cases h with ⟨rfl, hv⟩ | h
    · cases hv
      rfl
    · exact hI.cart k v' h hc

/-- A lookup leaves the world as it is and answers from the entry under its key, if it does not
fail; or there was no entry, and it leaves one: a marker, or the visit read from its row. -/
theorem visitGet_cases (hI : w.VisitInv) (key : Text) :
    ((w.visitGet key).1 = w ∧ ∀ v, (w.visitGet key).2 = .ok (some v) →
        w.visitCache key = some (.entity v)) ∨
      (w.visitCache key = none ∧ w.visitGet key
        = ({ w with visitCache := put w.visitCache key .notInDB }, .ok none)) ∨
      (w.visitCache key = none ∧ ∃ v, (∃ r ∈ w.db.visits, Db.ReadsVisit r v) ∧
        Guid.parse key = some v.visitGuid ∧ w.visitGet key
          = ({ w with visitCache := put w.visitCache key (.entity v) }, .ok (some v))) := by
  unfold visitGet
  rcases he : w.visitCache key with _ | ⟨v⟩ | _
  · rcases hg : Guid.parse key with _ | g
    · exact .inl (by simp)
    right
    rcases ht : (w.db.spVisitGetByToken g).take 1 with _ | ⟨v, l⟩
    · exact .inl (by simp [EntityCache.get, he, Db.visitCache, hg, ht])
    · have hm : v ∈ w.db.spVisitGetByToken g := List.mem_of_mem_take (ht ▸ List.mem_cons_self)
      obtain ⟨r, hr, hrg, hread⟩ := Db.mem_spVisitGetByToken hI.visits hm
      refine .inr ⟨rfl, v, ⟨r, hr, hread⟩, ?_, ?_⟩
      · rw [hread.visitGuid, hrg]
      · simp [EntityCache.get, he, Db.visitCache, hg, ht]
  · exact .inl (by simp [EntityCache.get, he])
  · exact .inl (by simp [EntityCache.get, he])

theorem visitGet_of_entity {key : Text} {v : DBVisit} (h : w.visitCache key = some (.entity v)) :
    w.visitGet key = (w, .ok (some v)) := by
  simp [visitGet, EntityCache.get, h]

theorem visitGet_cart (hI : w.VisitInv) {key : Text} {w' : World} {v : DBVisit}
    (h : w.visitGet key = (w', .ok (some v))) (hc : v.cart ≠ none) :
    key = v.visitGuid.text ∧ w.visitCache key = some (.entity v) ∧ w' = w := by
  rcases visitGet_cases hI key with ⟨hw, he⟩ | ⟨-, hn⟩ | ⟨-, v', ⟨r, -, hread⟩, -, hv'⟩
  · rw [h] at hw he
    have he := he v rfl
    exact ⟨hI.cart key v he hc, he, hw⟩
  · rw [h] at hn
    cases hn
  · rw [h] at hv'
    cases hv'
    exact absurd hread.cart hc

end World

end AciX
