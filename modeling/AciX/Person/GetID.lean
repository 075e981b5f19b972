import AciX.Sql.Case
import AciX.Sql.Sync

/-!
# Storing a person

`spPersonGetID` looks a person up by profile id and enters it if it is new. A person it knows is
updated only if a column is found to differ, and a `NULL` is taken for what is passed, or for the
first of January 2000. The lists that are passed are added by one `INSERT` each, refused as a whole
if two rows have the same key. What is passed is stored exactly if no column stays `NULL` that way,
no relative who is new is passed with two relationships, and every location is known (`stores_iff`).
-/

namespace AciX.Profile

open List Sql

structure PersonRow where
  id : ℤ
  profileID : Option Text
  firstNameID : Option ℤ
  middleNameID : Option ℤ
  lastNameID : Option ℤ
  dateOfBirth : Option ℤ
  phoneCount : Option ℕ
  emailCount : Option ℕ
  deriving DecidableEq

structure RelativeRow where
  personID : ℤ
  relatedPersonID : ℤ
  relationship : Text

def RelativeRow.key (r : RelativeRow) : ℤ × ℤ := (r.personID, r.relatedPersonID)

def RelativeRow.cols (r : RelativeRow) : ℤ × ℤ × Text :=
  (r.personID, r.relatedPersonID, collate r.relationship)

theorem RelativeRow.key_eq_of_cols {r s : RelativeRow} (h : r.cols = s.cols) : r.key = s.key := by
  simp only [RelativeRow.cols, Prod.mk.injEq] at h
  exact Prod.ext h.1 h.2.1

structure PersonGeoLocationRow where
  personID : ℤ
  geoLocationID : ℤ
  cityFips : Option ℤ

def PersonGeoLocationRow.key (r : PersonGeoLocationRow) : ℤ × ℤ := (r.personID, r.geoLocationID)

def PersonGeoLocationRow.cols (r : PersonGeoLocationRow) : ℤ × ℤ × Option ℤ :=
  (r.personID, r.geoLocationID, r.cityFips)

theorem PersonGeoLocationRow.key_eq_of_cols {r s : PersonGeoLocationRow} (h : r.cols = s.cols) :
    r.key = s.key := by
  simp only [PersonGeoLocationRow.cols, Prod.mk.injEq] at h
  exact Prod.ext h.1 h.2.1

structure GeoLocationRow where
  id : ℤ
  stateFips : Option ℤ
  cityFips : Option ℤ

structure LinkRow where
  personID : ℤ
  otherID : ℤ

def LinkRow.key (r : LinkRow) : ℤ × ℤ := (r.personID, r.otherID)

structure PersonDb where
  persons : List PersonRow := []
  relatives : List RelativeRow := []
  schools : List LinkRow := []
  companies : List LinkRow := []
  geoLocations : List PersonGeoLocationRow := []
  aliases : List LinkRow := []
  geo : List GeoLocationRow := []

structure PersonArgs where
  profileID : Option Text
  firstNameID : Option ℤ
  middleNameID : Option ℤ
  lastNameID : Option ℤ
  dateOfBirth : Option ℤ := none
  phoneCount : Option ℕ := none
  emailCount : Option ℕ := none
  schoolIDs : Option (List ℤ) := none
  relativeIDs : Option (List (Text × ℤ)) := none
  companyIDs : Option (List ℤ) := none
  geoLocationIDs : Option (List ℤ) := none
  aliasIDs : Option (List ℤ) := none

def january2000 : ℤ := 36524

def sameProfile (x y : Text) : Bool := textEq (char 11 x) (char 11 y)

namespace PersonArgs

variable (a : PersonArgs)

def differs (arg current : Option ℤ) : Bool :=
  match current.or arg with
  | none => false
  | some c => arg.getD 0 ≠ c

def differsFrom {α : Type} [DecidableEq α] (default : α) (arg current : Option α) : Bool :=
  match arg with
  | none => false
  | some x => x ≠ current.getD default

def isPerson (p : PersonRow) : Bool :=
  match p.profileID, a.profileID with
  | some x, some y => textEq x (char 11 y)
  | _, _ => false

def changes (p : PersonRow) : Bool :=
  differs a.firstNameID p.firstNameID || differs a.middleNameID p.middleNameID ||
    differs a.lastNameID p.lastNameID || differsFrom january2000 a.dateOfBirth p.dateOfBirth ||
    differsFrom 0 a.phoneCount p.phoneCount || differsFrom 0 a.emailCount p.emailCount

def updated (p : PersonRow) : PersonRow :=
  { p with
    firstNameID := a.firstNameID.or p.firstNameID
    lastNameID := a.lastNameID.or p.lastNameID
    middleNameID := a.middleNameID.or p.middleNameID
    dateOfBirth := a.dateOfBirth.or p.dateOfBirth
    phoneCount := a.phoneCount.or p.phoneCount
    emailCount := a.emailCount.or p.emailCount }

def newPerson (id : ℤ) : PersonRow where
  id := id
  profileID := a.profileID.map (char 11)
  firstNameID := a.firstNameID
  middleNameID := a.middleNameID
  lastNameID := a.lastNameID
  dateOfBirth := a.dateOfBirth
  phoneCount := a.phoneCount
  emailCount := a.emailCount

end PersonArgs

namespace PersonDb

variable (d : PersonDb) (a : PersonArgs)

def current : Option PersonRow := selectLast a.isPerson d.persons

def personID : ℤ :=
  match d.current a with
  | some p => p.id
  | none => 1 + maxFrom 0 (d.persons.map (·.id))

def storePerson : List PersonRow :=
  match d.current a with
  | none => d.persons ++ [a.newPerson (d.personID a)]
  | some p =>
    if a.changes p then d.persons.map fun q => if q.id = p.id then a.updated q else q
    else d.persons

section Lists

variable (id : ℤ)

def addLinks (rows : List LinkRow) : Option (List ℤ) → List LinkRow × Bool
  | none => (rows, true)
  | some ids => addMissing LinkRow.key LinkRow.key rows (ids.map (LinkRow.mk id))

def addRelatives (rows : List RelativeRow) : Option (List (Text × ℤ)) → List RelativeRow × Bool
  | none => (rows, true)
  | some items => addMissing RelativeRow.key RelativeRow.cols rows
      (items.map fun i => ⟨id, i.2, char 1 i.1⟩)

def addGeoLocations (geo : List GeoLocationRow) (rows : List PersonGeoLocationRow) :
    Option (List ℤ) → List PersonGeoLocationRow × Bool
  | none => (rows, true)
  | some ids => addMissing PersonGeoLocationRow.key PersonGeoLocationRow.cols rows
      ((join (fun i (g : GeoLocationRow) => i = g.id) ids geo).map
        fun j => ⟨id, j.1, j.2.cityFips⟩)

end Lists

/-- The database afterwards, the person's id, and whether no key was violated. A statement that
fails does not end the procedure. -/
def spPersonGetID : PersonDb × ℤ × Bool :=
  let id := d.personID a
  let relatives := addRelatives id d.relatives a.relativeIDs
  let schools := addLinks id d.schools a.schoolIDs
  let companies := addLinks id d.companies a.companyIDs
  let geoLocations := addGeoLocations id d.geo d.geoLocations a.geoLocationIDs
  let aliases := addLinks id d.aliases a.aliasIDs
  ({ d with
      persons := d.storePerson a
      relatives := relatives.1
      schools := schools.1
      companies := companies.1
      geoLocations := geoLocations.1
      aliases := aliases.1 }, id,
    relatives.2 && schools.2 && companies.2 && geoLocations.2 && aliases.2)

structure Keys : Prop where
  persons : Sql.Unique PersonRow.id d.persons
  relatives : Sql.Unique RelativeRow.key d.relatives
  schools : Sql.Unique LinkRow.key d.schools
  companies : Sql.Unique LinkRow.key d.companies
  geoLocations : Sql.Unique PersonGeoLocationRow.key d.geoLocations
  aliases : Sql.Unique LinkRow.key d.aliases
  geo : Sql.Unique GeoLocationRow.id d.geo

structure Stores : Prop where
  succeeds : (d.spPersonGetID a).2.2 = true
  person : ∃ p ∈ (d.spPersonGetID a).1.persons, p.id = (d.spPersonGetID a).2.1 ∧
    p.firstNameID = a.firstNameID.or ((d.current a).bind (·.firstNameID)) ∧
    p.middleNameID = a.middleNameID.or ((d.current a).bind (·.middleNameID)) ∧
    p.lastNameID = a.lastNameID.or ((d.current a).bind (·.lastNameID)) ∧
    p.dateOfBirth = a.dateOfBirth.or ((d.current a).bind (·.dateOfBirth))
  aliases : ∀ i ∈ a.aliasIDs.getD [],
    ∃ r ∈ (d.spPersonGetID a).1.aliases, r.key = ((d.spPersonGetID a).2.1, i)
  geoLocations : ∀ i ∈ a.geoLocationIDs.getD [],
    ∃ r ∈ (d.spPersonGetID a).1.geoLocations, r.key = ((d.spPersonGetID a).2.1, i)
  relatives : ∀ i ∈ a.relativeIDs.getD [],
    ∃ r ∈ (d.spPersonGetID a).1.relatives, r.key = ((d.spPersonGetID a).2.1, i.2)

instance : Decidable (d.Stores a) :=
  decidable_of_iff (_ ∧ _ ∧ _ ∧ _ ∧ _)
    ⟨fun ⟨h₁, h₂, h₃, h₄, h₅⟩ => ⟨h₁, h₂, h₃, h₄, h₅⟩, fun h => ⟨h.1, h.2, h.3, h.4, h.5⟩⟩

/-- A column found to differ makes the procedure update them all; or no name is passed for a column
that is `NULL`, and not the first of January 2000 for a date of birth that is. -/
def Fills : Prop :=
  ∀ p, d.current a = some p → a.changes p = true ∨
    ((a.firstNameID = none ∨ p.firstNameID ≠ none) ∧
      (a.middleNameID = none ∨ p.middleNameID ≠ none) ∧
      (a.lastNameID = none ∨ p.lastNameID ≠ none) ∧
      ¬(a.dateOfBirth = some january2000 ∧ p.dateOfBirth = none))

/-- A relative not yet stored is passed with one relationship only, as its first letter. -/
def OneRelationship : Prop :=
  ∀ i ∈ a.relativeIDs.getD [], ∀ j ∈ a.relativeIDs.getD [], i.2 = j.2 →
    (∀ r ∈ d.relatives, r.key ≠ (d.personID a, i.2)) →
    textEq (char 1 i.1) (char 1 j.1) = true

/-- The locations that are given exist, or the person has them already. -/
def KnownLocations : Prop :=
  ∀ i ∈ a.geoLocationIDs.getD [], (∃ g ∈ d.geo, g.id = i) ∨
    ∃ r ∈ d.geoLocations, r.key = (d.personID a, i)

variable {d a}

theorem eq_or_iff {arg current : Option ℤ} (h : PersonArgs.differs arg current = false) :
    current = arg.or current ↔ arg = none ∨ current ≠ none := by
  rcases arg with _ | x <;> rcases current with _ | c
  · simp
  · simp
  · simp
  · have hx : x = c := by simpa [PersonArgs.differs] using h
    simp [hx]

theorem eq_or_iff_of_date {arg current : Option ℤ}
    (h : PersonArgs.differsFrom january2000 arg current = false) :
    current = arg.or current ↔ ¬(arg = some january2000 ∧ current = none) := by
  rcases arg with _ | x <;> rcases current with _ | c
  · simp
  · simp
  · have hx : x = january2000 := by simpa [PersonArgs.differsFrom] using h
    simp [hx]
  · have hx : x = c := by simpa [PersonArgs.differsFrom] using h
    simp [hx]

theorem mem_storePerson_iff (h : d.Keys) {p : PersonRow} (hp : d.current a = some p)
    {P : PersonRow → Prop} :
    (∃ q ∈ d.storePerson a, q.id = p.id ∧ P q) ↔ P (if a.changes p then a.updated p else p) := by
  obtain ⟨hmem, -⟩ := selectLast_mem hp
  have hid : (a.updated p).id = p.id := rfl
  rw [storePerson, hp]
  by_cases hc : a.changes p = true
  · simp only [hc, if_true]
    constructor
    · rintro ⟨q, hq, hqid, hP⟩
      obtain ⟨q', hq', rfl⟩ := mem_map.1 hq
      by_cases hq'id : q'.id = p.id
      · rw [if_pos hq'id, h.persons.eq hq' hmem hq'id] at hP
        exact hP
      · rw [if_neg hq'id] at hqid
        exact absurd hqid hq'id
    · intro hP
      exact ⟨_, mem_map_of_mem hmem, by simp [hid], by simpa using hP⟩
  · simp only [hc, Bool.false_eq_true, if_false]
    constructor
    · rintro ⟨q, hq, hqid, hP⟩
      rwa [h.persons.eq hq hmem hqid] at hP
    · exact fun hP => ⟨p, hmem, rfl, hP⟩

theorem person_iff (h : d.Keys) :
    (∃ p ∈ d.storePerson a, p.id = d.personID a ∧
      p.firstNameID = a.firstNameID.or ((d.current a).bind (·.firstNameID)) ∧
      p.middleNameID = a.middleNameID.or ((d.current a).bind (·.middleNameID)) ∧
      p.lastNameID = a.lastNameID.or ((d.current a).bind (·.lastNameID)) ∧
      p.dateOfBirth = a.dateOfBirth.or ((d.current a).bind (·.dateOfBirth))) ↔ d.Fills a := by
  rcases hcur : d.current a with _ | p
  · have hnew : a.newPerson (d.personID a) ∈ d.storePerson a := by
      rw [storePerson, hcur]
      simp
    refine iff_of_true ⟨_, hnew, rfl, ?_⟩ (by simp [Fills, hcur])
    simp [PersonArgs.newPerson]
  · have hid : d.personID a = p.id := by rw [personID, hcur]
    rw [hid, mem_storePerson_iff h hcur]
    simp only [Fills, hcur, Option.some.injEq, forall_eq', Option.bind_some]
    by_cases hc : a.changes p = true
    · simp [hc, PersonArgs.updated]
    · simp only [hc, Bool.false_eq_true, if_false, false_or]
      simp only [PersonArgs.changes, Bool.or_eq_true, not_or, Bool.not_eq_true] at hc
      obtain ⟨⟨⟨⟨⟨hf, hm⟩, hl⟩, hd⟩, -⟩, -⟩ := hc
      rw [eq_or_iff hf, eq_or_iff hm, eq_or_iff hl, eq_or_iff_of_date hd]

section Lists

variable (id : ℤ) {ids : Option (List ℤ)} {rows : List LinkRow}

theorem addLinks_ok (hrows : Sql.Unique LinkRow.key rows)
    (ids : Option (List ℤ)) : (addLinks id rows ids).2 = true := by
  rcases ids with _ | ids
  · rfl
  · exact (addMissing_ok_iff hrows fun _ _ h => h).2 fun _ _ _ _ _ h => h

theorem exists_mem_addLinks (hrows : Sql.Unique LinkRow.key rows) {i : ℤ} (hi : i ∈ ids.getD []) :
    ∃ r ∈ (addLinks id rows ids).1, r.key = (id, i) := by
  have hok := addLinks_ok id hrows ids
  rcases ids with _ | ids
  · simp at hi
  · exact exists_mem_addMissing (a := ⟨id, i⟩) hok (fun _ _ h => h) (mem_map_of_mem hi)

variable {id} in
theorem unique_addLinks (hrows : Sql.Unique LinkRow.key rows) : Sql.Unique LinkRow.key
    (addLinks id rows ids).1 := by
  rcases ids with _ | ids
  · exact hrows
  · exact unique_addMissing hrows

theorem addRelatives_ok_iff {rows : List RelativeRow} (hrows : Sql.Unique RelativeRow.key rows)
    (items : Option (List (Text × ℤ))) :
    (addRelatives id rows items).2 = true ↔
      ∀ i ∈ items.getD [], ∀ j ∈ items.getD [], i.2 = j.2 →
        (∀ r ∈ rows, r.key ≠ (id, i.2)) →
        textEq (char 1 i.1) (char 1 j.1) = true := by
  rcases items with _ | items
  · simp [addRelatives]
  · simp only [addRelatives, Option.getD_some,
      addMissing_ok_iff hrows fun _ _ h => RelativeRow.key_eq_of_cols h, forall_mem_map]
    refine forall₂_congr fun i _ => forall₂_congr fun j _ => ?_
    have hkey : RelativeRow.key ⟨id, i.2, char 1 i.1⟩ =
        RelativeRow.key ⟨id, j.2, char 1 j.1⟩ ↔ i.2 = j.2 := by
      simp [RelativeRow.key]
    rw [hkey, forall_comm]
    refine forall₂_congr fun hij _ => ?_
    simp [RelativeRow.cols, textEq, hij]

theorem exists_mem_addRelatives {rows : List RelativeRow} {items : Option (List (Text × ℤ))}
    (hok : (addRelatives id rows items).2 = true) {i : Text × ℤ} (hi : i ∈ items.getD []) :
    ∃ r ∈ (addRelatives id rows items).1, r.key = (id, i.2) := by
  rcases items with _ | items
  · simp at hi
  · exact exists_mem_addMissing (a := ⟨id, i.2, char 1 i.1⟩) hok
      (fun _ _ h => RelativeRow.key_eq_of_cols h) (mem_map_of_mem hi)

theorem addGeoLocations_ok {geo : List GeoLocationRow} (hgeo : Sql.Unique GeoLocationRow.id geo)
    {rows : List PersonGeoLocationRow} (hrows : Sql.Unique PersonGeoLocationRow.key rows)
    (ids : Option (List ℤ)) : (addGeoLocations id geo rows ids).2 = true := by
  rcases ids with _ | ids
  · rfl
  · refine (addMissing_ok_iff hrows fun _ _ h => PersonGeoLocationRow.key_eq_of_cols h).2 ?_
    simp only [forall_mem_map]
    intro j hj k hk _ hkey
    obtain ⟨-, hjg, hjid⟩ := mem_join.1 hj
    obtain ⟨-, hkg, hkid⟩ := mem_join.1 hk
    simp only [decide_eq_true_eq] at hjid hkid
    simp only [PersonGeoLocationRow.key, Prod.mk.injEq, true_and] at hkey
    have hg : j.2 = k.2 := hgeo.eq hjg hkg (by rw [← hjid, ← hkid, hkey])
    simp [PersonGeoLocationRow.cols, hkey, hg]

theorem exists_mem_addGeoLocations_iff {geo : List GeoLocationRow}
    {rows : List PersonGeoLocationRow}
    (hok : (addGeoLocations id geo rows ids).2 = true) {i : ℤ} (hi : i ∈ ids.getD []) :
    (∃ r ∈ (addGeoLocations id geo rows ids).1, r.key = (id, i)) ↔
      (∃ g ∈ geo, g.id = i) ∨ ∃ r ∈ rows, r.key = (id, i) := by
  rcases ids with _ | ids
  · simp at hi
  constructor
  · rintro ⟨r, hr, hkey⟩
    rcases mem_addMissing hr with hr | hr
    · exact .inr ⟨r, hr, hkey⟩
    · obtain ⟨j, hj, rfl⟩ := mem_map.1 hr
      obtain ⟨-, hjg, hjid⟩ := mem_join.1 hj
      simp only [decide_eq_true_eq] at hjid
      simp only [PersonGeoLocationRow.key, Prod.mk.injEq, true_and] at hkey
      exact .inl ⟨j.2, hjg, by rw [← hjid, hkey]⟩
  · rintro (⟨g, hg, rfl⟩ | ⟨r, hr, hkey⟩)
    · exact exists_mem_addMissing (a := ⟨id, g.id, g.cityFips⟩) hok
        (fun _ _ h => PersonGeoLocationRow.key_eq_of_cols h)
        (mem_map.2 ⟨(g.id, g), mem_join.2 ⟨hi, hg, by simp⟩, rfl⟩)
    · exact ⟨r, mem_addMissing_left hr, hkey⟩

end Lists

section Frame

theorem current_congr {b : PersonArgs} (h : a.profileID = b.profileID) :
    d.current a = d.current b := by
  have hp : a.isPerson = b.isPerson := by
    funext p
    simp only [PersonArgs.isPerson, h]
  rw [current, current, hp]

theorem current_spPersonGetID (b : PersonArgs) :
    (d.spPersonGetID a).1.current b =
      match d.current a with
      | none =>
        if b.isPerson (a.newPerson (d.personID a)) = true then some (a.newPerson (d.personID a))
        else d.current b
      | some p => (d.current b).map fun q =>
        if a.changes p = true ∧ q.id = p.id then a.updated q else q := by
  have hperson : ∀ f : PersonRow → PersonRow, (∀ q, (f q).profileID = q.profileID) →
      ∀ q, b.isPerson (f q) = b.isPerson q := by
    intro f hf q
    simp only [PersonArgs.isPerson, hf]
  show selectLast b.isPerson (d.storePerson a) = _
  rw [storePerson]
  rcases d.current a with _ | p
  · exact selectLast_concat _ _ _
  · by_cases hc : a.changes p = true
    · simp only [hc, if_true, true_and]
      refine selectLast_map (hperson _ fun q => ?_) _
      split_ifs <;> rfl
    · simp [hc, current]

variable {b : PersonArgs} {x y : Text}

section

variable (ha : a.profileID = some x)
include ha

theorem sameProfile_of_isPerson (hb : b.profileID = some y)
    {p : PersonRow} (hpa : a.isPerson p = true) (hpb : b.isPerson p = true) :
    sameProfile x y = true := by
  simp only [PersonArgs.isPerson, ha, hb] at hpa hpb
  rcases hp : p.profileID with _ | z
  · simp [hp] at hpa
  · simp only [hp] at hpa hpb
    exact textEq_trans (textEq_symm hpa) hpb

theorem isPerson_of_sameProfile (hb : b.profileID = some y)
    (h : sameProfile x y = true) {p : PersonRow} (hpa : a.isPerson p = true) :
    b.isPerson p = true := by
  simp only [PersonArgs.isPerson, ha, hb] at hpa ⊢
  rcases hp : p.profileID with _ | z
  · simp [hp] at hpa
  · simp only [hp] at hpa ⊢
    exact textEq_trans hpa h

theorem isPerson_newPerson (i : ℤ) :
    a.isPerson (a.newPerson i) = true := by
  simp [PersonArgs.isPerson, PersonArgs.newPerson, ha]

theorem exists_current (hb : b.profileID = some y) {q : PersonRow}
    (hq : d.current b = some q) :
    ∃ q', (d.spPersonGetID a).1.current b = some q' ∧ q'.id = q.id := by
  rw [current_spPersonGetID]
  rcases hcur : d.current a with _ | p
  · by_cases hnew : b.isPerson (a.newPerson (d.personID a)) = true
    · have hsame := sameProfile_of_isPerson hb ha hnew (isPerson_newPerson ha _)
      obtain ⟨hmem, hqb⟩ := selectLast_mem hq
      have hqa := isPerson_of_sameProfile hb ha hsame hqb
      rw [selectLast_none.1 hcur q hmem] at hqa
      cases hqa
    · exact ⟨q, by simp [hnew, hq], rfl⟩
  · refine ⟨_, by rw [hq]; rfl, ?_⟩
    show (if a.changes p = true ∧ q.id = p.id then a.updated q else q).id = q.id
    split_ifs <;> rfl

theorem exists_current_self :
    ∃ p, (d.spPersonGetID a).1.current a = some p ∧ p.id = (d.spPersonGetID a).2.1 := by
  have hid : (d.spPersonGetID a).2.1 = d.personID a := rfl
  rw [current_spPersonGetID, hid]
  rcases hcur : d.current a with _ | p
  · exact ⟨a.newPerson (d.personID a), by simp [isPerson_newPerson ha], rfl⟩
  · refine ⟨_, rfl, ?_⟩
    rw [personID, hcur]
    show (if a.changes p = true ∧ p.id = p.id then a.updated p else p).id = p.id
    split_ifs <;> rfl

end

theorem current_of_not_sameProfile (h : d.Keys) (ha : a.profileID = some x)
    (hb : b.profileID = some y) (hne : sameProfile x y = false) :
    (d.spPersonGetID a).1.current b = d.current b := by
  rw [current_spPersonGetID]
  rcases hcur : d.current a with _ | p
  · have hnew : ¬ b.isPerson (a.newPerson (d.personID a)) = true := by
      intro hnew
      rw [sameProfile_of_isPerson ha hb (isPerson_newPerson ha _) hnew] at hne
      cases hne
    exact if_neg hnew
  · rcases hq : d.current b with _ | q
    · rfl
    · obtain ⟨hpmem, hpa⟩ := selectLast_mem hcur
      obtain ⟨hqmem, hqb⟩ := selectLast_mem hq
      have hid : q.id ≠ p.id := by
        intro hid
        rw [h.persons.eq hqmem hpmem hid] at hqb
        rw [sameProfile_of_isPerson ha hb hpa hqb] at hne
        cases hne
      simp [hid]

theorem keys_spPersonGetID (h : d.Keys) : (d.spPersonGetID a).1.Keys where
  persons := by
    show Sql.Unique PersonRow.id (d.storePerson a)
    rw [storePerson]
    rcases hcur : d.current a with _ | p
    · refine h.persons.append (nodup_singleton _) fun q hq r hr => ?_
      rw [mem_singleton.1 hr]
      have hle : q.id ≤ maxFrom 0 (d.persons.map (·.id)) := le_maxFrom (mem_map_of_mem hq)
      show q.id ≠ d.personID a
      rw [personID, hcur]
      show q.id ≠ 1 + maxFrom 0 (d.persons.map (·.id))
      omega
    · show Sql.Unique PersonRow.id (if a.changes p then _ else _)
      split_ifs
      · refine h.persons.map fun q => ?_
        split_ifs <;> rfl
      · exact h.persons
  relatives := by
    show Sql.Unique _ (addRelatives _ d.relatives a.relativeIDs).1
    rcases a.relativeIDs with _ | items
    · exact h.relatives
    · exact unique_addMissing h.relatives
  schools := unique_addLinks h.schools
  companies := unique_addLinks h.companies
  geoLocations := by
    show Sql.Unique _ (addGeoLocations _ d.geo d.geoLocations a.geoLocationIDs).1
    rcases a.geoLocationIDs with _ | ids
    · exact h.geoLocations
    · exact unique_addMissing h.geoLocations
  aliases := unique_addLinks h.aliases
  geo := h.geo

theorem mem_aliases {r : LinkRow} (hr : r ∈ d.aliases) : r ∈ (d.spPersonGetID a).1.aliases := by
  show r ∈ (addLinks _ d.aliases a.aliasIDs).1
  rcases a.aliasIDs with _ | ids
  · exact hr
  · exact mem_addMissing_left hr

theorem mem_geoLocations {r : PersonGeoLocationRow} (hr : r ∈ d.geoLocations) :
    r ∈ (d.spPersonGetID a).1.geoLocations := by
  show r ∈ (addGeoLocations _ d.geo d.geoLocations a.geoLocationIDs).1
  rcases a.geoLocationIDs with _ | ids
  · exact hr
  · exact mem_addMissing_left hr

theorem mem_relatives {r : RelativeRow} (hr : r ∈ d.relatives) :
    r ∈ (d.spPersonGetID a).1.relatives := by
  show r ∈ (addRelatives _ d.relatives a.relativeIDs).1
  rcases a.relativeIDs with _ | items
  · exact hr
  · exact mem_addMissing_left hr

end Frame

/-- A call stores what is passed exactly if no column stays `NULL`, a new relative has one
relationship, and the locations are known. -/
theorem stores_iff (h : d.Keys) :
    d.Stores a ↔ d.Fills a ∧ d.OneRelationship a ∧ d.KnownLocations a := by
  have hgeo := addGeoLocations_ok (d.personID a) h.geo h.geoLocations a.geoLocationIDs
  have hok : (d.spPersonGetID a).2.2 = true ↔ d.OneRelationship a := by
    simp only [spPersonGetID, addLinks_ok _ h.schools, addLinks_ok _ h.companies,
      addLinks_ok _ h.aliases, hgeo, Bool.and_true, addRelatives_ok_iff _ h.relatives,
        OneRelationship]
  constructor
  · intro hs
    refine ⟨(person_iff h).1 hs.person, hok.1 hs.succeeds, fun i hi => ?_⟩
    exact (exists_mem_addGeoLocations_iff _ hgeo hi).1 (hs.geoLocations i hi)
  · rintro ⟨hfills, hone, hknown⟩
    exact {
      succeeds := hok.2 hone
      person := (person_iff h).2 hfills
      aliases := fun i hi => exists_mem_addLinks _ h.aliases hi
      geoLocations := fun i hi => (exists_mem_addGeoLocations_iff _ hgeo hi).2 (hknown i hi)
      relatives := fun i hi =>
        exists_mem_addRelatives _ ((addRelatives_ok_iff _ h.relatives _).2 hone) hi }

def bob (firstNameID : Option ℤ) : PersonDb where
  persons := [⟨1, some "Q0000000001".toList, firstNameID, none, some 20, none, none, none⟩]
  geo := [⟨8, some 6, some 100⟩]

theorem bob_keys (firstNameID : Option ℤ) : (bob firstNameID).Keys := by
  constructor <;> simp [bob, Sql.Unique]

def renamed : PersonArgs where
  profileID := some "q0000000001".toList
  firstNameID := some 7
  middleNameID := none
  lastNameID := some 20
  relativeIDs := some [("Brother".toList, 2)]
  geoLocationIDs := some [8]

theorem renamed_stored :
    (bob (some 5)).Stores renamed ∧
      ((bob (some 5)).spPersonGetID renamed).1.persons.map (·.firstNameID) = [some 7] := by
  refine ⟨(stores_iff (bob_keys _)).2 ⟨fun p hp => .inl ?_, ?_, ?_⟩, by decide⟩
  · have hcur : (bob (some 5)).current renamed = some
        ⟨1, some "Q0000000001".toList, some 5, none, some 20, none, none, none⟩ := by decide
    obtain rfl := Option.some.inj (hcur.symm.trans hp)
    decide
  · simp [OneRelationship, renamed, textEq]
  · simp [KnownLocations, renamed, bob]

/-- The first name stays `NULL`. A brother who is also a son is not entered at all, and the call
fails. -/
theorem name_stays_null_and_relative_refused :
    let both := { renamed with relativeIDs := some [("Brother".toList, 2), ("Son".toList, 2)] }
    ((bob none).spPersonGetID renamed).1.persons.map (·.firstNameID) = [none] ∧
      ¬ (bob none).Stores renamed ∧
      ((bob (some 5)).spPersonGetID both).2.2 = false ∧
      ((bob (some 5)).spPersonGetID both).1.relatives = [] := by
  have hnull : ((bob none).spPersonGetID renamed).1.persons.map (·.firstNameID) = [none] :=
    by decide
  refine ⟨hnull, ?_, by decide, by decide⟩
  intro hs
  obtain ⟨p, hp, -, hfirst, -⟩ := hs.person
  have hmem := mem_map_of_mem (f := (·.firstNameID)) hp
  rw [hnull, hfirst] at hmem
  simp [renamed] at hmem

end PersonDb

end AciX.Profile
