import AciX.Person.GetID
import AciX.Run

/-!
# Entering profiles

`ServerProfile.UpdateDB` looks up the ids of the places, schools, companies, names and relatives of
a profile, and calls `spPersonGetID` for the profile itself, all through dictionaries that are never
emptied. For names and places that makes no difference (`updateDB_refines`). For persons it does:
the call that would store the profile is left out once its id has been met. So the last version of a
profile is in the database if its id was not met before, or if what it says was there already
(`held_of_clean`).
-/

namespace AciX.Ingest

open List

open Profile (PersonDb PersonArgs PersonRow sameProfile)

structure FullName where
  firstName : Text
  middleName : Text
  lastName : Text

structure Address where
  city : Text
  state : Text
  zip : Text

structure Relative where
  relationship : Text
  name : FullName
  profileID : Text

structure Profile where
  profileID : Text
  name : FullName
  dateOfBirth : Option ℤ := none
  phones : ℕ := 0
  emails : ℕ := 0
  addresses : List Address := []
  workHistory : List Text := []
  schools : List Text := []
  aliases : List FullName := []
  relatives : List Relative := []

/-- What the procedures that number names, companies, schools, aliases and places answer. -/
structure Ids where
  firstNameID : Text → ℤ
  middleNameID : Text → ℤ
  lastNameID : Text → ℤ
  companyID : Text → ℤ
  schoolID : Text → ℤ
  aliasID : ℤ → ℤ → ℤ → ℤ
  geoLocationID : Text → Text → Text → ℤ

inductive CacheKind
  | geoLocation
  | company
  | school
  | firstName
  | middleName
  | lastName
  deriving DecidableEq

/-- `PersonCache`, the database, and the calls made to `spPersonGetID`, each with the database it
found. -/
structure People where
  db : PersonDb
  cache : Text → Option ℤ := fun _ => none
  calls : List (PersonDb × PersonArgs) := []

structure State where
  people : People
  texts : CacheKind → Text → Option ℤ := fun _ _ => none
  aliases : ℤ × ℤ × ℤ → Option ℤ := fun _ => none

section Program

variable (ids : Ids)

def queryDB : CacheKind → Text → ℤ
  | .geoLocation, key =>
    match key.splitOn '|' with
    | city :: state :: zip :: _ => ids.geoLocationID city state zip
    | _ => 0
  | .company, key => ids.companyID key
  | .school, key => ids.schoolID key
  | .firstName, key => ids.firstNameID key
  | .middleName, key => ids.middleNameID key
  | .lastName, key => ids.lastNameID key

def getID (kind : CacheKind) (key : Text) : StateM State ℤ := fun s =>
  match s.texts kind key with
  | some id => (id, s)
  | none =>
    let id := queryDB ids kind key
    let cache := Function.update (s.texts kind) key (some id)
    (id, { s with texts := Function.update s.texts kind cache })

def getAliasID (f m l : ℤ) : StateM State ℤ := fun s =>
  match s.aliases (f, m, l) with
  | some id => (id, s)
  | none =>
    let id := ids.aliasID f m l
    (id, { s with aliases := Function.update s.aliases (f, m, l) (some id) })

def getPersonID (profileID : Text) (args : PersonArgs) : StateM People ℤ := fun s =>
  match s.cache profileID with
  | some id => (id, s)
  | none =>
    let args := { args with profileID := some profileID }
    let r := s.db.spPersonGetID args
    (r.2.1, ⟨r.1, Function.update s.cache profileID (some r.2.1), s.calls ++ [(s.db, args)]⟩)

def onPeople {α : Type} (m : StateM People α) : StateM State α := fun s =>
  ((m s.people).1, { s with people := (m s.people).2 })

def Address.key (a : Address) : Text := a.city ++ '|' :: a.state ++ '|' :: a.zip

def listOrNull {α : Type} (l : List α) : Option (List α) := if l.isEmpty then none else some l

def countOrNull (n : ℕ) : Option ℕ := if n = 0 then none else some n

def updateDB (v : Profile) : StateM State ℤ := do
  let geoLocationIDs ← v.addresses.mapM fun a => getID ids .geoLocation a.key
  let companyIDs ← v.workHistory.mapM (getID ids .company)
  let schoolIDs ← v.schools.mapM (getID ids .school)
  let aliasIDs ← v.aliases.mapM fun n => do
    let f ← getID ids .firstName n.firstName
    let m ← getID ids .middleName n.middleName
    let l ← getID ids .lastName n.lastName
    getAliasID ids f m l
  let relativeIDs ← v.relatives.mapM fun r => do
    let f ← getID ids .firstName r.name.firstName
    let m ← getID ids .middleName r.name.middleName
    let l ← getID ids .lastName r.name.lastName
    let id ← onPeople (getPersonID r.profileID
      { profileID := none, firstNameID := f, middleNameID := m, lastNameID := l })
    pure (r.relationship, id)
  let f ← getID ids .firstName v.name.firstName
  let m ← getID ids .middleName v.name.middleName
  let l ← getID ids .lastName v.name.lastName
  onPeople (getPersonID v.profileID
    { profileID := none
      firstNameID := f
      middleNameID := m
      lastNameID := l
      dateOfBirth := v.dateOfBirth
      phoneCount := countOrNull v.phones
      emailCount := countOrNull v.emails
      schoolIDs := listOrNull schoolIDs
      relativeIDs := listOrNull relativeIDs
      companyIDs := listOrNull companyIDs
      geoLocationIDs := listOrNull geoLocationIDs
      aliasIDs := listOrNull aliasIDs })

def ingest (d : PersonDb) (vs : List Profile) : State :=
  run (fun s v => (updateDB ids v s).2) { people := { db := d } } vs

end Program

section Names

variable (ids : Ids)

structure Right (s : State) : Prop where
  texts : ∀ kind key id, s.texts kind key = some id → id = queryDB ids kind key
  aliases : ∀ f m l id, s.aliases (f, m, l) = some id → id = ids.aliasID f m l

/-- `m` does to the persons what `n` does, whatever the dictionaries of names and places hold. -/
def Refines {α : Type} (m : StateM State α) (n : StateM People α) : Prop :=
  ∀ s, Right ids s →
    (m s).1 = (n s.people).1 ∧ (m s).2.people = (n s.people).2 ∧ Right ids (m s).2

variable {ids} {α β : Type} {f : α → StateM State β}

theorem refines_pure (a : α) : Refines ids (pure a) (pure a) := fun _ hs => ⟨rfl, rfl, hs⟩

theorem Refines.bind {m : StateM State α} {n : StateM People α}
    {g : α → StateM People β} (hm : Refines ids m n) (hf : ∀ a, Refines ids (f a) (g a)) :
    Refines ids (m >>= f) (n >>= g) := by
  intro s hs
  obtain ⟨hval, hpeople, hright⟩ := hm s hs
  have h := hf (m s).1 (m s).2 hright
  rw [hpeople, hval] at h
  show (f (m s).1 (m s).2).1 = (g (n s.people).1 (n s.people).2).1 ∧
    (f (m s).1 (m s).2).2.people = (g (n s.people).1 (n s.people).2).2 ∧
    Right ids (f (m s).1 (m s).2).2
  rw [hval]
  exact h

theorem Refines.bind_pure {m : StateM State α} {a : α}
    {n : StateM People β} (hm : Refines ids m (pure a)) (hf : Refines ids (f a) n) :
    Refines ids (m >>= f) n := by
  intro s hs
  obtain ⟨hval, hpeople, hright⟩ := hm s hs
  have h := hf (m s).2 hright
  rw [hpeople] at h
  show (f (m s).1 (m s).2).1 = _ ∧ (f (m s).1 (m s).2).2.people = _ ∧
    Right ids (f (m s).1 (m s).2).2
  rw [hval]
  exact h

theorem Refines.mapM {g : α → StateM People β} :
    ∀ {l : List α}, (∀ a ∈ l, Refines ids (f a) (g a)) → Refines ids (l.mapM f) (l.mapM g)
  | [], _ => by
    rw [mapM_nil, mapM_nil]
    exact refines_pure _
  | a :: l, h => by
    rw [mapM_cons, mapM_cons]
    refine (h a (by simp)).bind fun b => ?_
    exact (Refines.mapM fun c hc => h c (by simp [hc])).bind fun bs => refines_pure _

theorem right_update {κ : Type} [DecidableEq κ] (query : κ → ℤ) {cache : κ → Option ℤ}
    (h : ∀ k id, cache k = some id → id = query k) (key : κ) :
    ∀ k id, Function.update cache key (some (query key)) k = some id → id = query k := by
  intro k id hk
  by_cases hkey : k = key
  · rw [hkey, Function.update_self] at hk
    rw [hkey, Option.some.inj hk]
  · rw [Function.update_of_ne hkey] at hk
    exact h k id hk

theorem refines_getID (kind : CacheKind) (key : Text) :
    Refines ids (getID ids kind key) (pure (queryDB ids kind key)) := by
  intro s hs
  rcases hc : s.texts kind key with _ | id
  · simp only [getID, hc]
    refine ⟨rfl, rfl, ⟨fun kind' => ?_, hs.aliases⟩⟩
    by_cases hk : kind' = kind
    · subst hk
      simp only [Function.update_self]
      exact right_update _ (hs.texts kind') key
    · simp only [Function.update_of_ne hk]
      exact hs.texts kind'
  · simp only [getID, hc]
    exact ⟨hs.texts _ _ _ hc, rfl, hs⟩

theorem refines_getAliasID (f m l : ℤ) :
    Refines ids (getAliasID ids f m l) (pure (ids.aliasID f m l)) := by
  intro s hs
  rcases hc : s.aliases (f, m, l) with _ | id
  · simp only [getAliasID, hc]
    refine ⟨rfl, rfl, ⟨hs.texts, fun f' m' l' id' h => ?_⟩⟩
    exact right_update (fun k => ids.aliasID k.1 k.2.1 k.2.2)
      (fun k id hk => hs.aliases _ _ _ id hk) (f, m, l) (f', m', l') id' h
  · simp only [getAliasID, hc]
    exact ⟨hs.aliases _ _ _ _ hc, rfl, hs⟩

theorem refines_onPeople (n : StateM People α) : Refines ids (onPeople n) n :=
  fun _ hs => ⟨rfl, rfl, ⟨hs.texts, hs.aliases⟩⟩

theorem queryDB_key {a : Address} (h : '|' ∉ a.city ∧ '|' ∉ a.state ∧ '|' ∉ a.zip) :
    queryDB ids .geoLocation a.key = ids.geoLocationID a.city a.state a.zip := by
  have hkey : a.key = ['|'].intercalate [a.city, a.state, a.zip] := by
    simp [Address.key, List.intercalate, List.intersperse]
  have hsplit : a.key.splitOn '|' = [a.city, a.state, a.zip] := by
    rw [hkey]
    exact splitOn_intercalate '|' (by simpa using h) (by simp)
  simp only [queryDB, hsplit]

variable (ids)

def Address.id (a : Address) : ℤ := ids.geoLocationID a.city a.state a.zip

def FullName.aliasID (n : FullName) : ℤ :=
  ids.aliasID (ids.firstNameID n.firstName) (ids.middleNameID n.middleName)
    (ids.lastNameID n.lastName)

def FullName.args (n : FullName) : PersonArgs where
  profileID := none
  firstNameID := ids.firstNameID n.firstName
  middleNameID := ids.middleNameID n.middleName
  lastNameID := ids.lastNameID n.lastName

def Profile.args (v : Profile) (relativeIDs : List (Text × ℤ)) : PersonArgs :=
  { v.name.args ids with
    dateOfBirth := v.dateOfBirth
    phoneCount := countOrNull v.phones
    emailCount := countOrNull v.emails
    schoolIDs := listOrNull (v.schools.map ids.schoolID)
    relativeIDs := listOrNull relativeIDs
    companyIDs := listOrNull (v.workHistory.map ids.companyID)
    geoLocationIDs := listOrNull (v.addresses.map (Address.id ids))
    aliasIDs := listOrNull (v.aliases.map (FullName.aliasID ids)) }

def enterRelative (r : Relative) : StateM People (Text × ℤ) := do
  let id ← getPersonID r.profileID (r.name.args ids)
  pure (r.relationship, id)

def enter (v : Profile) : StateM People ℤ := do
  let relativeIDs ← v.relatives.mapM (enterRelative ids)
  getPersonID v.profileID (v.args ids relativeIDs)

variable {ids}

theorem Refines.mapM_pure {g : α → β} {l : List α}
    (h : ∀ a ∈ l, Refines ids (f a) (pure (g a))) : Refines ids (l.mapM f) (pure (l.map g)) := by
  have hmap : l.mapM (fun a => (pure (g a) : StateM People β)) = pure (l.map g) := by
    simp
  rw [← hmap]
  exact Refines.mapM h

theorem updateDB_refines {v : Profile}
    (h : ∀ a ∈ v.addresses, '|' ∉ a.city ∧ '|' ∉ a.state ∧ '|' ∉ a.zip) :
    Refines ids (updateDB ids v) (enter ids v) := by
  have hgeo : Refines ids (v.addresses.mapM fun a => getID ids .geoLocation a.key)
      (pure (v.addresses.map (Address.id ids))) := by
    refine Refines.mapM_pure fun a ha => ?_
    rw [Address.id, ← queryDB_key (h a ha)]
    exact refines_getID _ _
  refine hgeo.bind_pure ?_
  refine (Refines.mapM_pure fun a _ => refines_getID .company a).bind_pure ?_
  refine (Refines.mapM_pure fun a _ => refines_getID .school a).bind_pure ?_
  refine (Refines.mapM_pure (g := FullName.aliasID ids) fun n _ => ?_).bind_pure ?_
  · refine (refines_getID _ _).bind_pure ((refines_getID _ _).bind_pure ?_)
    exact (refines_getID _ _).bind_pure (refines_getAliasID _ _ _)
  refine (Refines.mapM fun r _ => ?_).bind fun relativeIDs => ?_
  · refine (refines_getID _ _).bind_pure ((refines_getID _ _).bind_pure ?_)
    exact (refines_getID _ _).bind_pure ((refines_onPeople _).bind fun id => refines_pure _)
  · refine (refines_getID _ _).bind_pure ((refines_getID _ _).bind_pure ?_)
    exact (refines_getID _ _).bind_pure (refines_onPeople _)

end Names

def personOf (d : PersonDb) (profileID : Text) : Option PersonRow :=
  d.current { profileID := some profileID, firstNameID := none, middleNameID := none, lastNameID :=
    none }

section Spec

variable (ids : Ids)

structure HeldAt (d : PersonDb) (v : Profile) (p : PersonRow) : Prop where
  firstName : p.firstNameID = some (ids.firstNameID v.name.firstName)
  middleName : p.middleNameID = some (ids.middleNameID v.name.middleName)
  lastName : p.lastNameID = some (ids.lastNameID v.name.lastName)
  dateOfBirth : ∀ t, v.dateOfBirth = some t → p.dateOfBirth = some t
  aliases : ∀ n ∈ v.aliases, ∃ r ∈ d.aliases, r.key = (p.id, n.aliasID ids)
  locations : ∀ a ∈ v.addresses, ∃ r ∈ d.geoLocations, r.key = (p.id, a.id ids)
  relatives : ∀ x ∈ v.relatives, ∃ q, personOf d x.profileID = some q ∧
    ∃ r ∈ d.relatives, r.key = (p.id, q.id)

def Held (d : PersonDb) (v : Profile) : Prop :=
  ∃ p, personOf d v.profileID = some p ∧ HeldAt ids d v p

def Profile.meets (v : Profile) : List Text := v.relatives.map (·.profileID) ++ [v.profileID]

/-- No place has a bar in it; an id is spelled one way; and when a profile is entered for the last
time, its id was not met before and is not that of a relative of its own, or it was met and what the
profile says is in the database. -/
structure Clean (d : PersonDb) (vs : List Profile) : Prop where
  bars : ∀ v ∈ vs, ∀ a ∈ v.addresses, '|' ∉ a.city ∧ '|' ∉ a.state ∧ '|' ∉ a.zip
  spelled : ∀ x ∈ vs.flatMap Profile.meets, ∀ y ∈ vs.flatMap Profile.meets,
    sameProfile x y = true → x = y
  unmet : ∀ before v after, vs = before ++ v :: after →
    (∀ w ∈ after, w.profileID ≠ v.profileID) →
    (v.profileID ∉ before.flatMap Profile.meets ∧ ∀ r ∈ v.relatives, r.profileID ≠ v.profileID) ∨
    (v.profileID ∈ before.flatMap Profile.meets ∧ Held ids (ingest ids d before).people.db v)

end Spec

section Calls

variable {ids : Ids}

structure Inv (s : People) : Prop where
  keys : s.db.Keys
  cached : ∀ x id, s.cache x = some id → ∃ p, personOf s.db x = some p ∧ p.id = id

structure Extends (names : List Text) (s s' : People) : Prop where
  inv : Inv s'
  cache : ∀ x id, s.cache x = some id → s'.cache x = some id
  person : ∀ x p, personOf s.db x = some p → ∃ p', personOf s'.db x = some p' ∧ p'.id = p.id
  row : ∀ x ∈ names, ∀ id, s.cache x = some id → personOf s'.db x = personOf s.db x
  aliases : ∀ r ∈ s.db.aliases, r ∈ s'.db.aliases
  locations : ∀ r ∈ s.db.geoLocations, r ∈ s'.db.geoLocations
  relatives : ∀ r ∈ s.db.relatives, r ∈ s'.db.relatives
  calls : ∀ c ∈ s.calls, c ∈ s'.calls

variable {names : List Text} {s s' s'' : People} {v : Profile}

theorem Extends.refl (h : Inv s) : Extends names s s where
  inv := h
  cache _ _ h := h
  person _ p h := ⟨p, h, rfl⟩
  row _ _ _ _ := rfl
  aliases _ h := h
  locations _ h := h
  relatives _ h := h
  calls _ h := h

theorem Extends.trans (h : Extends names s s') (h' : Extends names s' s'') :
    Extends names s s'' where
  inv := h'.inv
  cache x id hx := h'.cache x id (h.cache x id hx)
  person x p hp := by
    obtain ⟨p', hp', hid⟩ := h.person x p hp
    obtain ⟨p'', hp'', hid'⟩ := h'.person x p' hp'
    exact ⟨p'', hp'', hid'.trans hid⟩
  row x hx id hid := (h'.row x hx id (h.cache x id hid)).trans (h.row x hx id hid)
  aliases r hr := h'.aliases r (h.aliases r hr)
  locations r hr := h'.locations r (h.locations r hr)
  relatives r hr := h'.relatives r (h.relatives r hr)
  calls c hc := h'.calls c (h.calls c hc)

theorem Extends.held (h : Extends names s s') (hv : v.profileID ∈ names) {id : ℤ}
    (hid : s.cache v.profileID = some id) (hheld : Held ids s.db v) : Held ids s'.db v := by
  obtain ⟨p, hp, hat⟩ := hheld
  refine ⟨p, (h.row _ hv id hid).trans hp, { hat with
    aliases := fun n hn => ?_
    locations := fun a ha => ?_
    relatives := fun x hx => ?_ }⟩
  · obtain ⟨r, hr, hkey⟩ := hat.aliases n hn
    exact ⟨r, h.aliases r hr, hkey⟩
  · obtain ⟨r, hr, hkey⟩ := hat.locations a ha
    exact ⟨r, h.locations r hr, hkey⟩
  · obtain ⟨q, hq, r, hr, hkey⟩ := hat.relatives x hx
    obtain ⟨q', hq', hqid⟩ := h.person _ q hq
    exact ⟨q', hq', r, h.relatives r hr, by rw [hkey, hqid]⟩

theorem getPersonID_of_some {x : Text} {id : ℤ} (h : s.cache x = some id) (a : PersonArgs) :
    getPersonID x a s = (id, s) := by
  simp only [getPersonID, h]

theorem getPersonID_of_none {x : Text} (h : s.cache x = none) (a : PersonArgs) :
    getPersonID x a s =
      ((s.db.spPersonGetID { a with profileID := some x }).2.1,
        ⟨(s.db.spPersonGetID { a with profileID := some x }).1,
          Function.update s.cache x (some (s.db.spPersonGetID { a with profileID := some x }).2.1),
          s.calls ++ [(s.db, { a with profileID := some x })]⟩) := by
  simp only [getPersonID, h]

theorem cache_getPersonID (x : Text) (a : PersonArgs) (s : People) :
    (getPersonID x a s).2.cache = Function.update s.cache x (some (getPersonID x a s).1) := by
  rcases hc : s.cache x with _ | id
  · rw [getPersonID_of_none hc]
  · rw [getPersonID_of_some hc, ← hc, Function.update_eq_self]

theorem getPersonID_extends (hinv : Inv s) {x : Text}
    (hspelled : ∀ y ∈ names, sameProfile x y = true → x = y) (a : PersonArgs) :
    Extends names s (getPersonID x a s).2 := by
  rcases hc : s.cache x with _ | id
  · rw [getPersonID_of_none hc]
    set args : PersonArgs := { a with profileID := some x }
    have hargs : args.profileID = some x := rfl
    have hperson : ∀ y p, personOf s.db y = some p →
        ∃ p', personOf (s.db.spPersonGetID args).1 y = some p' ∧ p'.id = p.id :=
      fun y p hp => PersonDb.exists_current hargs rfl hp
    refine ⟨⟨PersonDb.keys_spPersonGetID hinv.keys, fun y id hy => ?_⟩, fun y id hy => ?_, hperson,
      fun y hy id hid => ?_, fun _ => PersonDb.mem_aliases, fun _ => PersonDb.mem_geoLocations,
      fun _ => PersonDb.mem_relatives, fun c hc => mem_append_left _ hc⟩
    · replace hy : Function.update s.cache x (some (s.db.spPersonGetID args).2.1) y = some id := hy
      by_cases hyx : y = x
      · subst hyx
        rw [Function.update_self] at hy
        obtain ⟨p, hp, hpid⟩ := PersonDb.exists_current_self (d := s.db) hargs
        refine ⟨p, ?_, hpid.trans (Option.some.inj hy)⟩
        rw [← hp]
        exact PersonDb.current_congr hargs.symm
      · rw [Function.update_of_ne hyx] at hy
        obtain ⟨p, hp, hpid⟩ := hinv.cached y id hy
        obtain ⟨p', hp', hid⟩ := hperson y p hp
        exact ⟨p', hp', hid.trans hpid⟩
    · have hyx : y ≠ x := by
        rintro rfl
        rw [hc] at hy
        cases hy
      exact (Function.update_of_ne hyx _ _).trans hy
    · refine PersonDb.current_of_not_sameProfile hinv.keys hargs rfl ?_
      by_contra hsame
      obtain rfl := hspelled y hy (by simpa using hsame)
      rw [hc] at hid
      cases hid
  · rw [getPersonID_of_some hc]
    exact .refl hinv

theorem cache_getPersonID_eq_none {x y : Text} {a : PersonArgs} :
    (getPersonID x a s).2.cache y = none ↔ s.cache y = none ∧ y ≠ x := by
  rw [cache_getPersonID]
  by_cases hyx : y = x
  · simp [hyx]
  · simp [hyx]

theorem enterRelative_eq (r : Relative) (s : People) :
    enterRelative ids r s = ((r.relationship, (getPersonID r.profileID (r.name.args ids) s).1),
      (getPersonID r.profileID (r.name.args ids) s).2) := rfl

theorem mapM_enterRelative_cons (r : Relative) (l : List Relative) (s : People) :
    (r :: l).mapM (enterRelative ids) s =
      ((enterRelative ids r s).1 :: (l.mapM (enterRelative ids) (enterRelative ids r s).2).1,
        (l.mapM (enterRelative ids) (enterRelative ids r s).2).2) := by
  rw [mapM_cons]
  rfl

theorem mapM_enterRelative_extends : ∀ {l : List Relative} {s : People}, Inv s →
    (∀ r ∈ l, ∀ y ∈ names, sameProfile r.profileID y = true → r.profileID = y) →
    Extends names s (l.mapM (enterRelative ids) s).2
  | [], _, hinv, _ => .refl hinv
  | r :: l, s, hinv, hspelled => by
    have hfirst : Extends names s (enterRelative ids r s).2 :=
      getPersonID_extends hinv (hspelled r (by simp)) _
    rw [mapM_enterRelative_cons]
    exact hfirst.trans (mapM_enterRelative_extends hfirst.inv fun q hq => hspelled q (by simp [hq]))

theorem cache_mapM_enterRelative {y : Text} : ∀ {l : List Relative} {s : People},
    (l.mapM (enterRelative ids) s).2.cache y = none ↔ s.cache y = none ∧ ∀ r ∈ l, r.profileID ≠ y
  | [], s => by simp [mapM_nil, pure, StateT.pure]
  | r :: l, s => by
    rw [mapM_enterRelative_cons, cache_mapM_enterRelative, enterRelative_eq,
      cache_getPersonID_eq_none, forall_mem_cons, and_assoc, ne_comm]

theorem mem_mapM_enterRelative {r : Relative} : ∀ {l : List Relative} {s : People}, Inv s →
    (∀ q ∈ l, ∀ y ∈ names, sameProfile q.profileID y = true → q.profileID = y) → r ∈ l →
    ∃ id, (l.mapM (enterRelative ids) s).2.cache r.profileID = some id ∧
      (r.relationship, id) ∈ (l.mapM (enterRelative ids) s).1
  | q :: l, s, hinv, hspelled, hr => by
    have hfirst : Extends names s (enterRelative ids q s).2 :=
      getPersonID_extends hinv (hspelled q (by simp)) _
    have hrest : ∀ q ∈ l, ∀ y ∈ names, sameProfile q.profileID y = true → q.profileID = y :=
      fun q hq => hspelled q (by simp [hq])
    rw [mapM_enterRelative_cons]
    rcases mem_cons.1 hr with rfl | hr
    · refine ⟨(getPersonID r.profileID (r.name.args ids) s).1, ?_, mem_cons_self⟩
      refine (mapM_enterRelative_extends hfirst.inv hrest).cache _ _ ?_
      rw [enterRelative_eq, cache_getPersonID, Function.update_self]
    · obtain ⟨id, hid, hmem⟩ := mem_mapM_enterRelative hfirst.inv hrest hr
      exact ⟨id, hid, mem_cons_of_mem _ hmem⟩

theorem enter_eq (v : Profile) (s : People) :
    enter ids v s = getPersonID v.profileID (v.args ids (v.relatives.mapM (enterRelative ids) s).1)
      (v.relatives.mapM (enterRelative ids) s).2 := rfl

theorem enter_extends (hinv : Inv s)
    (hspelled : ∀ x ∈ v.meets, ∀ y ∈ names, sameProfile x y = true → x = y) :
    Extends names s (enter ids v s).2 := by
  have hrelatives : Extends names s (v.relatives.mapM (enterRelative ids) s).2 :=
    mapM_enterRelative_extends hinv fun r hr =>
      hspelled _ (mem_append_left _ (mem_map_of_mem hr))
  rw [enter_eq]
  exact hrelatives.trans (getPersonID_extends hrelatives.inv (hspelled _ (by simp [Profile.meets]))
    _)

theorem cache_enter {y : Text} :
    (enter ids v s).2.cache y = none ↔ s.cache y = none ∧ y ∉ v.meets := by
  rw [enter_eq, cache_getPersonID_eq_none, cache_mapM_enterRelative, and_assoc]
  simp only [Profile.meets, mem_append, mem_map, mem_singleton, not_or, not_exists, not_and]

theorem getD_listOrNull {α : Type} (l : List α) : (listOrNull l).getD [] = l := by
  rcases l with _ | ⟨a, l⟩ <;> rfl

theorem enter_held (hinv : Inv s)
    (hspelled : ∀ x ∈ v.meets, ∀ y ∈ names, sameProfile x y = true → x = y)
    (hnone : s.cache v.profileID = none) (hself : ∀ r ∈ v.relatives, r.profileID ≠ v.profileID)
    (hstores : ∀ c ∈ (enter ids v s).2.calls, c.1.Stores c.2) :
    Held ids (enter ids v s).2.db v := by
  have hlisted : ∀ r ∈ v.relatives, ∀ y ∈ names, sameProfile r.profileID y = true →
      r.profileID = y := fun r hr => hspelled _ (mem_append_left _ (mem_map_of_mem hr))
  have hrelatives : Extends names s (v.relatives.mapM (enterRelative ids) s).2 :=
    mapM_enterRelative_extends hinv hlisted
  have hmem : ∀ r ∈ v.relatives,
      ∃ id, (v.relatives.mapM (enterRelative ids) s).2.cache r.profileID = some id ∧
        (r.relationship, id) ∈ (v.relatives.mapM (enterRelative ids) s).1 :=
    fun r hr => mem_mapM_enterRelative hinv hlisted hr
  have hc : (v.relatives.mapM (enterRelative ids) s).2.cache v.profileID = none :=
    cache_mapM_enterRelative.2 ⟨hnone, hself⟩
  rw [enter_eq, getPersonID_of_none hc] at hstores ⊢
  set s₁ := (v.relatives.mapM (enterRelative ids) s).2
  set relativeIDs := (v.relatives.mapM (enterRelative ids) s).1
  set args : PersonArgs := { v.args ids relativeIDs with profileID := some v.profileID }
  have hst : s₁.db.Stores args := hstores (s₁.db, args) (by simp)
  obtain ⟨p, hp, hpid, hfirst, hmiddle, hlast, hdate⟩ := hst.person
  obtain ⟨p', hp', hpid'⟩ := PersonDb.exists_current_self (d := s₁.db) (a := args) rfl
  have hkeys := PersonDb.keys_spPersonGetID (a := args) hrelatives.inv.keys
  obtain rfl : p = p' := hkeys.persons.eq hp (Sql.selectLast_mem hp').1 (hpid.trans hpid'.symm)
  refine ⟨p, (PersonDb.current_congr rfl).trans hp', ?_⟩
  exact {
    firstName := hfirst
    middleName := hmiddle
    lastName := hlast
    dateOfBirth := fun t ht => by
      rw [hdate]
      show v.dateOfBirth.or _ = _
      rw [ht]
      rfl
    aliases := fun n hn => by
      rw [hpid]
      refine hst.aliases _ ?_
      show n.aliasID ids ∈ (listOrNull (v.aliases.map (FullName.aliasID ids))).getD []
      rw [getD_listOrNull]
      exact mem_map_of_mem hn
    locations := fun a ha => by
      rw [hpid]
      refine hst.geoLocations _ ?_
      show a.id ids ∈ (listOrNull (v.addresses.map (Address.id ids))).getD []
      rw [getD_listOrNull]
      exact mem_map_of_mem ha
    relatives := fun x hx => by
      obtain ⟨id, hid, hmem⟩ := hmem x hx
      obtain ⟨q, hq, hqid⟩ := hrelatives.inv.cached _ _ hid
      obtain ⟨q', hq', hqid'⟩ := PersonDb.exists_current (a := args) rfl rfl hq
      refine ⟨q', hq', ?_⟩
      rw [hpid, hqid', hqid]
      refine hst.relatives (x.relationship, id) ?_
      show _ ∈ (listOrNull relativeIDs).getD []
      rw [getD_listOrNull]
      exact hmem }

end Calls

section Runs

variable (ids : Ids)

def enterAll (s : People) (vs : List Profile) : People := run (fun s v => (enter ids v s).2) s vs

variable {ids} {s : People} {names : List Text}

theorem enterAll_extends : ∀ {vs : List Profile} {s : People}, Inv s →
    (∀ x ∈ vs.flatMap Profile.meets, ∀ y ∈ names, sameProfile x y = true → x = y) →
    Extends names s (enterAll ids s vs)
  | [], _, hinv, _ => .refl hinv
  | v :: vs, s, hinv, hspelled => by
    have hfirst : Extends names s (enter ids v s).2 :=
      enter_extends hinv fun x hx => hspelled x (by simp [hx])
    exact hfirst.trans (enterAll_extends hfirst.inv fun x hx => hspelled x (by
      rw [flatMap_cons]
      exact mem_append_right _ hx))

theorem cache_enterAll {y : Text} : ∀ {vs : List Profile} {s : People},
    (enterAll ids s vs).cache y = none ↔ s.cache y = none ∧ y ∉ vs.flatMap Profile.meets
  | [], s => by simp [enterAll]
  | v :: vs, s => by
    have ih : (enterAll ids (enter ids v s).2 vs).cache y = none ↔ _ := cache_enterAll
    show (enterAll ids (enter ids v s).2 vs).cache y = none ↔ _
    rw [ih, cache_enter, flatMap_cons, mem_append, not_or, and_assoc]

theorem people_run : ∀ {vs : List Profile} {s : State}, Right ids s →
    (∀ v ∈ vs, ∀ a ∈ v.addresses, '|' ∉ a.city ∧ '|' ∉ a.state ∧ '|' ∉ a.zip) →
    (run (fun s v => (updateDB ids v s).2) s vs).people = enterAll ids s.people vs
  | [], _, _, _ => rfl
  | v :: vs, s, hs, hbars => by
    obtain ⟨-, hpeople, hright⟩ := updateDB_refines (hbars v (by simp)) s hs
    rw [run_cons, people_run hright fun w hw => hbars w (by simp [hw]), hpeople]
    rfl

theorem people_ingest {d : PersonDb} {vs : List Profile}
    (h : ∀ v ∈ vs, ∀ a ∈ v.addresses, '|' ∉ a.city ∧ '|' ∉ a.state ∧ '|' ∉ a.zip) :
    (ingest ids d vs).people = enterAll ids { db := d } vs :=
  people_run ⟨fun _ _ _ h => (by cases h), fun _ _ _ _ h => (by cases h)⟩ h

/-- After clean profiles whose calls store what they pass, the last profile of an id is held. -/
theorem held_of_clean {d : PersonDb} (hkeys : d.Keys) {vs : List Profile} (h : Clean ids d vs)
    (hstores : ∀ c ∈ (ingest ids d vs).people.calls, c.1.Stores c.2)
    {before after : List Profile} {v : Profile} (hvs : vs = before ++ v :: after)
    (hlast : ∀ w ∈ after, w.profileID ≠ v.profileID) :
    Held ids (ingest ids d vs).people.db v := by
  have hbars : ∀ w ∈ before, ∀ a ∈ w.addresses, '|' ∉ a.city ∧ '|' ∉ a.state ∧ '|' ∉ a.zip :=
    fun w hw => h.bars w (by simp [hvs, hw])
  have hcond := h.unmet before v after hvs hlast
  rw [people_ingest h.bars] at hstores ⊢
  rw [people_ingest hbars] at hcond
  have hmeets : vs.flatMap Profile.meets =
      before.flatMap Profile.meets ++ (v.meets ++ after.flatMap Profile.meets) := by
    rw [hvs, flatMap_append, flatMap_cons]
  have hspelled : ∀ l : List Text, l ⊆ vs.flatMap Profile.meets → ∀ x ∈ l,
      ∀ y ∈ vs.flatMap Profile.meets, sameProfile x y = true → x = y :=
    fun l hl x hx y hy => h.spelled x (hl hx) y hy
  -- up to the profile, the profile, and the rest of the run
  set s₀ := enterAll ids { db := d } before
  set s₁ := (enter ids v s₀).2
  have hrun : enterAll ids { db := d } vs = enterAll ids s₁ after := by
    rw [hvs]
    exact foldl_append
  have hstart : Inv { db := d } := ⟨hkeys, fun _ _ h => by cases h⟩
  have hext₀ : Extends (vs.flatMap Profile.meets) { db := d } s₀ :=
    enterAll_extends hstart (hspelled _ (by simp [hmeets]))
  have hext₁ : Extends (vs.flatMap Profile.meets) s₀ s₁ :=
    enter_extends hext₀.inv (hspelled _ (by simp [hmeets]))
  have hext₂ : Extends (vs.flatMap Profile.meets) s₁ (enterAll ids s₁ after) :=
    enterAll_extends hext₁.inv (hspelled _ (by simp [hmeets]))
  have hname : v.profileID ∈ vs.flatMap Profile.meets := by simp [hmeets, Profile.meets]
  rw [hrun] at hstores ⊢
  obtain ⟨id, hid⟩ : ∃ id, s₁.cache v.profileID = some id := by
    rw [← Option.ne_none_iff_exists']
    intro hnone
    exact (cache_enter.1 hnone).2 (by simp [Profile.meets])
  refine hext₂.held hname hid ?_
  rcases hcond with ⟨hunmet, hself⟩ | ⟨hmet, hheld⟩
  · refine enter_held hext₀.inv (hspelled _ (by simp [hmeets])) ?_ hself
      fun c hc => hstores c (hext₂.calls c hc)
    exact cache_enterAll.2 ⟨rfl, hunmet⟩
  · obtain ⟨id₀, hid₀⟩ : ∃ id, s₀.cache v.profileID = some id := by
      rw [← Option.ne_none_iff_exists']
      intro hnone
      exact (cache_enterAll.1 hnone).2 hmet
    exact hext₁.held hname hid₀ hheld

end Runs

def lengths : Ids where
  firstNameID t := t.length
  middleNameID t := t.length
  lastNameID t := t.length
  companyID t := t.length
  schoolID t := t.length
  aliasID f m l := 100 * f + 10 * m + l
  geoLocationID _ _ zip := zip.length

def brother : Profile where
  profileID := "Q1".toList
  name := ⟨"Tom".toList, [], "Gray".toList⟩
  dateOfBirth := some 30000
  addresses := [⟨"Reno".toList, "NV".toList, "89501".toList⟩]
  aliases := [⟨"Tommy".toList, [], "Gray".toList⟩]

def sister : Profile where
  profileID := "Q2".toList
  name := ⟨"Anne".toList, [], "Gray".toList⟩
  relatives := [⟨"Brother".toList, brother.name, brother.profileID⟩]

def places : PersonDb where
  geo := [⟨5, some 32, some 60600⟩]

theorem places_keys : places.Keys := by
  constructor <;> simp [places, Sql.Unique]

theorem siblings_clean : Clean lengths places [brother, sister] where
  bars := by decide
  spelled := by decide
  unmet before v after hvs _ := by
    left
    rcases before with _ | ⟨w, _ | ⟨x, before⟩⟩
    · obtain ⟨rfl, -⟩ := List.cons.inj hvs
      decide
    · simp only [cons_append, nil_append, List.cons.injEq] at hvs
      obtain ⟨rfl, rfl, -⟩ := hvs
      decide
    · simp at hvs

theorem siblings_held :
    Held lengths (ingest lengths places [brother, sister]).people.db brother :=
  held_of_clean places_keys siblings_clean (by decide)
    (show [brother, sister] = [] ++ brother :: [sister] from rfl) (by decide)

/-- The sister first: the brother is met as her relative, and his date of birth is not stored. -/
theorem brother_not_held :
    (∀ c ∈ (ingest lengths places [sister, brother]).people.calls, c.1.Stores c.2) ∧
      (personOf (ingest lengths places [sister, brother]).people.db brother.profileID).map
        (·.dateOfBirth) = some none ∧
      ¬ Held lengths (ingest lengths places [sister, brother]).people.db brother := by
  have hdate : (personOf (ingest lengths places [sister, brother]).people.db
      brother.profileID).map (·.dateOfBirth) = some none := by decide
  refine ⟨by decide, hdate, ?_⟩
  rintro ⟨p, hp, hat⟩
  rw [hp, Option.map_some, hat.dateOfBirth 30000 rfl] at hdate
  simp at hdate

end AciX.Ingest
