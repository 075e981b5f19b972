import AciX.Gpd.Directory
import AciX.Person.GetID
import AciX.Sql.Group

/-!
# The names of a city

`spCityLookupUpdate` groups the persons of one city by name and brings the rows of that city in
`CityLookup` up to date. The outcome is the fresh grouping up to letter case and blanks at the end
(`spCityLookupUpdate_perm`). What is counted are persons joined with their locations, so the counts
are of persons exactly if no person has two locations in the city (`counts_persons_iff`).
-/

namespace AciX.Profile

open List Sql

open Gpd (City)

structure LookupRow where
  city : City
  lastName : Option Text
  firstName : Option Text
  lastNameID : ℤ
  firstNameID : ℤ
  personCount : ℤ
  deriving DecidableEq

namespace LookupRow

def cols (r : LookupRow) : Option Text × Option Text × ℤ × ℤ × ℤ :=
  (r.lastName.map collate, r.firstName.map collate, r.lastNameID, r.firstNameID,
    r.personCount)

def null (c : Option Text × Option Text × ℤ × ℤ × ℤ) : Bool := c.1.isNone || c.2.1.isNone

end LookupRow

structure NamedRow where
  lastName : Option Text
  firstName : Option Text
  lastNameID : ℤ
  firstNameID : ℤ

namespace NamedRow

variable (n : NamedRow)

def cols : Option Text × Option Text × ℤ × ℤ :=
  (n.lastName.map collate, n.firstName.map collate, n.lastNameID, n.firstNameID)

def plain (name : Text) : Text := varchar 50 (name.filter (· != '\''))

def lookupRow (city : City) (personCount : ℤ) : LookupRow :=
  ⟨city, n.lastName.map plain, n.firstName.map plain, n.lastNameID, n.firstNameID, personCount⟩

end NamedRow

structure LookupDb extends PersonDb where
  firstNames : List AciX.NameRow := []
  lastNames : List AciX.NameRow := []
  cityLookup : List LookupRow := []

namespace LookupDb

variable (d : LookupDb) (city : City)

def geoIDs : List ℤ :=
  (d.geo.filter fun g =>
    g.cityFips = some city.cityFips && g.stateFips = some (city.stateFips : ℤ)).map (·.id)

def personIDs : List ℤ :=
  (join (fun (l : PersonGeoLocationRow) i => i = l.geoLocationID) d.geoLocations
    (d.geoIDs city)).map (·.1.personID)

def named : List ((PersonRow × AciX.NameRow) × AciX.NameRow) :=
  join (fun j ln => j.1.lastNameID = some ln.id)
    (join (fun (p : PersonRow) (fn : AciX.NameRow) => p.firstNameID = some fn.id) d.persons
      d.firstNames) d.lastNames

def namedRows : List NamedRow :=
  (join (fun j i => i = j.1.1.id) d.named (d.personIDs city)).map fun j =>
    ⟨j.1.2.name, j.1.1.2.name, j.1.2.id, j.1.1.2.id⟩

def tcitylookup : List LookupRow :=
  (groupBy NamedRow.cols ((d.namedRows city).map (·, 1))).map fun g => g.1.lookupRow city g.2

def kept : List LookupRow :=
  d.cityLookup.filter fun cl => !(cl.city = city &&
    !(d.tcitylookup city).any fun tcl => rowEq LookupRow.cols LookupRow.null cl tcl)

def spCityLookupUpdate : LookupDb :=
  { d with cityLookup := d.kept city ++ (d.tcitylookup city).filter fun tcl =>
      !(d.kept city).any fun cl =>
        cl.city = city && rowEq LookupRow.cols LookupRow.null cl tcl }

structure Keys : Prop where
  persons : Sql.Unique PersonRow.id d.persons
  geoLocations : Sql.Unique PersonGeoLocationRow.key d.geoLocations
  geo : Sql.Unique GeoLocationRow.id d.geo
  firstNames : Sql.Unique AciX.NameRow.id d.firstNames
  lastNames : Sql.Unique AciX.NameRow.id d.lastNames

def lookupRows : List LookupRow := d.cityLookup.filter fun r => r.city = city

variable {d city}

theorem city_of_mem_tcitylookup {r : LookupRow} (h : r ∈ d.tcitylookup city) : r.city = city := by
  obtain ⟨g, -, rfl⟩ := mem_map.1 h
  rfl

theorem filter_kept :
    (d.kept city).filter (fun r => r.city = city) =
      (d.lookupRows city).filter fun cl => (d.tcitylookup city).any
        fun tcl => rowEq LookupRow.cols LookupRow.null cl tcl := by
  rw [kept, lookupRows, filter_filter, filter_filter]
  refine filter_congr fun r _ => ?_
  by_cases hr : r.city = city
  · simp [hr]
  · simp [hr]

theorem lookupRows_update :
    (d.spCityLookupUpdate city).lookupRows city =
      sync LookupRow.cols LookupRow.null (d.tcitylookup city) (d.lookupRows city) := by
  rw [sync, ← filter_kept]
  simp only [lookupRows, spCityLookupUpdate, filter_append, filter_filter, any_filter]
  congr 1
  refine filter_congr fun tcl htcl => ?_
  simp [city_of_mem_tcitylookup htcl]

theorem other_rows_update :
    (d.spCityLookupUpdate city).cityLookup.filter (fun r => r.city ≠ city) =
      d.cityLookup.filter fun r => r.city ≠ city := by
  have hfresh : ((d.tcitylookup city).filter fun tcl => !(d.kept city).any fun cl =>
      cl.city = city && rowEq LookupRow.cols LookupRow.null cl tcl).filter
        (fun r => r.city ≠ city) = [] := by
    refine filter_eq_nil_iff.2 fun r hr => ?_
    simp [city_of_mem_tcitylookup (mem_filter.1 hr).1]
  rw [spCityLookupUpdate, filter_append, hfresh, append_nil, kept, filter_filter]
  refine filter_congr fun r _ => ?_
  by_cases hr : r.city = city
  · simp [hr]
  · simp [hr]

theorem mem_named {j : (PersonRow × AciX.NameRow) × AciX.NameRow} :
    j ∈ d.named ↔ j.1.1 ∈ d.persons ∧ j.1.2 ∈ d.firstNames ∧ j.2 ∈ d.lastNames ∧
      j.1.1.firstNameID = some j.1.2.id ∧ j.1.1.lastNameID = some j.2.id := by
  obtain ⟨⟨p, fn⟩, ln⟩ := j
  simp only [named, mem_join, decide_eq_true_eq]
  tauto

theorem mem_namedRows {n : NamedRow} :
    n ∈ d.namedRows city ↔ ∃ j ∈ d.named, j.1.1.id ∈ d.personIDs city ∧
      n = ⟨j.2.name, j.1.2.name, j.2.id, j.1.2.id⟩ := by
  simp only [namedRows, mem_map]
  constructor
  · rintro ⟨⟨j, i⟩, hj, rfl⟩
    obtain ⟨hmem, hi, hon⟩ := mem_join.1 hj
    obtain rfl : i = j.1.1.id := by simpa using hon
    exact ⟨j, hmem, hi, rfl⟩
  · rintro ⟨j, hj, hi, rfl⟩
    exact ⟨(j, j.1.1.id), mem_join.2 ⟨hj, hi, by simp⟩, rfl⟩

theorem eq_of_mem_namedRows (h : d.Keys) {m n : NamedRow} (hm : m ∈ d.namedRows city)
    (hn : n ∈ d.namedRows city) (hlast : m.lastNameID = n.lastNameID)
    (hfirst : m.firstNameID = n.firstNameID) : m = n := by
  obtain ⟨j, hj, -, rfl⟩ := mem_namedRows.1 hm
  obtain ⟨k, hk, -, rfl⟩ := mem_namedRows.1 hn
  obtain ⟨-, hjf, hjl, -⟩ := mem_named.1 hj
  obtain ⟨-, hkf, hkl, -⟩ := mem_named.1 hk
  rw [h.firstNames.eq hjf hkf hfirst, h.lastNames.eq hjl hkl hlast]

theorem mem_tcitylookup {r : LookupRow} (hr : r ∈ d.tcitylookup city) :
    ∃ n ∈ d.namedRows city,
      r = n.lookupRow city (((d.namedRows city).filter fun m => m.cols = n.cols).length : ℤ) := by
  obtain ⟨g, hg, rfl⟩ := mem_map.1 hr
  obtain ⟨⟨s, hs, hsg⟩, htotal⟩ := mem_groupBy hg
  obtain ⟨n, hn, rfl⟩ := mem_map.1 hs
  refine ⟨n, hn, ?_⟩
  rw [htotal, ← hsg, Sql.total, filter_map, map_map]
  simp [Function.comp_def]

theorem mem_namedRows_of_mem_groupBy {g : NamedRow × ℤ}
    (h : g ∈ groupBy NamedRow.cols ((d.namedRows city).map (·, 1))) :
    g.1 ∈ d.namedRows city := by
  obtain ⟨⟨s, hs, hsg⟩, -⟩ := mem_groupBy h
  obtain ⟨n, hn, rfl⟩ := mem_map.1 hs
  exact hsg ▸ hn

theorem unique_tcitylookup (h : d.Keys) : Sql.Unique LookupRow.cols (d.tcitylookup city) := by
  rw [Sql.Unique, tcitylookup, map_map]
  refine List.Nodup.map_on (fun g hg g' hg' heq => ?_) unique_groupBy.nodup
  simp only [Function.comp_apply, LookupRow.cols, NamedRow.lookupRow, Prod.mk.injEq] at heq
  have hname : g.1 = g'.1 := eq_of_mem_namedRows h (mem_namedRows_of_mem_groupBy hg)
    (mem_namedRows_of_mem_groupBy hg') heq.2.2.1 heq.2.2.2.1
  exact Prod.ext hname heq.2.2.2.2

/-- An update leaves the city with the rows computed from its persons, and other cities as they are.
-/
theorem spCityLookupUpdate_perm (h : d.Keys)
    (hrows : Sql.Unique LookupRow.cols (d.lookupRows city)) :
    (((d.spCityLookupUpdate city).lookupRows city).map LookupRow.cols).Perm
        ((d.tcitylookup city).map LookupRow.cols) ∧
      (d.spCityLookupUpdate city).cityLookup.filter (fun r => r.city ≠ city) =
        d.cityLookup.filter (fun r => r.city ≠ city) ∧
      ((d.spCityLookupUpdate city).spCityLookupUpdate city).cityLookup.Perm
        (d.spCityLookupUpdate city).cityLookup := by
  refine ⟨?_, other_rows_update, ?_⟩
  · rw [lookupRows_update]
    exact sync_perm hrows (unique_tcitylookup h)
  · have hfresh : (d.spCityLookupUpdate city).tcitylookup city = d.tcitylookup city := rfl
    have hcity : (((d.spCityLookupUpdate city).spCityLookupUpdate city).lookupRows city).Perm
        ((d.spCityLookupUpdate city).lookupRows city) := by
      rw [lookupRows_update, hfresh, lookupRows_update]
      exact sync_sync_perm
    refine (filter_append_perm (fun r : LookupRow => r.city = city) _).symm.trans
      (List.Perm.trans (hcity.append ?_)
        (filter_append_perm (fun r : LookupRow => r.city = city) _))
    have hother := @other_rows_update (d.spCityLookupUpdate city) city
    simp only [ne_eq, decide_not] at hother
    rw [hother]

section Count

variable (d city)

def locations (p : PersonRow) : List PersonGeoLocationRow :=
  d.geoLocations.filter fun l =>
    l.personID = p.id && (d.geoIDs city).any fun i => i = l.geoLocationID

def isNamed (lastNameID firstNameID : ℤ) (p : PersonRow) : Bool :=
  p.lastNameID = some lastNameID && p.firstNameID = some firstNameID

def peopleNamed (lastNameID firstNameID : ℤ) : List PersonRow :=
  d.persons.filter fun p => isNamed lastNameID firstNameID p && !(d.locations city p).isEmpty

/-- Each row counts the persons of the city with its names. -/
def CountsPersons : Prop :=
  ∀ r ∈ (d.spCityLookupUpdate city).lookupRows city,
    r.personCount = ((d.peopleNamed city r.lastNameID r.firstNameID).length : ℤ)

/-- No person with names has two locations in the city. -/
def OneLocation : Prop :=
  ∀ p ∈ d.persons, (∃ fn ∈ d.firstNames, p.firstNameID = some fn.id) →
    (∃ ln ∈ d.lastNames, p.lastNameID = some ln.id) → (d.locations city p).length ≤ 1

variable {d city}

theorem count_personIDs (h : d.Keys) (p : PersonRow) :
    ((d.personIDs city).filter fun i => i = p.id).length = (d.locations city p).length := by
  have hgeo : Sql.Unique (fun i : ℤ => i) (d.geoIDs city) := by
    rw [Sql.Unique, map_id']
    exact h.geo.filter _
  have hjoin := congrArg (List.map (·.personID)) (map_fst_join
    (fun (l : PersonGeoLocationRow) i => i = l.geoLocationID) hgeo
    (fun l i _ j _ hi hj => by simp_all) d.geoLocations)
  rw [map_map] at hjoin
  have hids : d.personIDs city = (d.geoLocations.filter fun l =>
      (d.geoIDs city).any fun i => i = l.geoLocationID).map (·.personID) := hjoin
  rw [hids, locations, filter_map, length_map, filter_filter]
  rfl

theorem map_named (h : d.Keys) :
    d.named.map (·.1.1) = d.persons.filter fun p =>
      (d.firstNames.any fun fn => p.firstNameID = some fn.id) &&
        d.lastNames.any fun ln => p.lastNameID = some ln.id := by
  have hfirst := map_fst_join (fun (p : PersonRow) (fn : AciX.NameRow) =>
    p.firstNameID = some fn.id) h.firstNames (fun p a _ b _ ha hb => by simp_all) d.persons
  have hlast := map_fst_join (fun (j : PersonRow × AciX.NameRow) (ln : AciX.NameRow) =>
    j.1.lastNameID = some ln.id) h.lastNames (fun p a _ b _ ha hb => by simp_all)
    (join (fun (p : PersonRow) (fn : AciX.NameRow) => p.firstNameID = some fn.id) d.persons
      d.firstNames)
  have hmap : d.named.map (·.1.1) = (d.named.map Prod.fst).map Prod.fst := by
    rw [map_map]
    rfl
  rw [hmap, named, hlast]
  have hcomm := filter_map (f := Prod.fst) (p := fun p : PersonRow =>
    d.lastNames.any fun ln => p.lastNameID = some ln.id) (l := join
      (fun (p : PersonRow) (fn : AciX.NameRow) => p.firstNameID = some fn.id)
        d.persons d.firstNames)
  rw [hfirst, filter_filter] at hcomm
  rw [show (fun a : PersonRow × AciX.NameRow =>
      d.lastNames.any fun ln => a.1.lastNameID = some ln.id) =
    (fun p : PersonRow => d.lastNames.any fun ln => p.lastNameID = some ln.id) ∘ Prod.fst from rfl,
    ← hcomm]
  refine filter_congr fun p _ => Bool.and_comm _ _

theorem length_filter_namedRows (h : d.Keys) {l f : ℤ} (hl : ∃ ln ∈ d.lastNames, ln.id = l)
    (hf : ∃ fn ∈ d.firstNames, fn.id = f) :
    ((d.namedRows city).filter fun n => n.lastNameID = l && n.firstNameID = f).length =
      ((d.persons.filter (isNamed l f)).map fun p => (d.locations city p).length).sum := by
  obtain ⟨ln, hln, rfl⟩ := hl
  obtain ⟨fn, hfn, rfl⟩ := hf
  have hpersons : (d.named.filter fun j => isNamed ln.id fn.id j.1.1).map (·.1.1) =
      d.persons.filter (isNamed ln.id fn.id) := by
    have hcomm := filter_map (f := fun j : (PersonRow × AciX.NameRow) × AciX.NameRow => j.1.1)
      (p := isNamed ln.id fn.id) (l := d.named)
    rw [map_named h, filter_filter] at hcomm
    refine hcomm.symm.trans (filter_congr fun p _ => ?_)
    by_cases hp : isNamed ln.id fn.id p = true
    · obtain ⟨hlast, hfirst⟩ : p.lastNameID = some ln.id ∧ p.firstNameID = some fn.id := by
        simpa [isNamed] using hp
      have hf : d.firstNames.any (fun fn => p.firstNameID = some fn.id) = true :=
        any_eq_true.2 ⟨fn, hfn, by simp [hfirst]⟩
      have hl : d.lastNames.any (fun ln => p.lastNameID = some ln.id) = true :=
        any_eq_true.2 ⟨ln, hln, by simp [hlast]⟩
      rw [hp, hf, hl]
      rfl
    · simp [hp]
  calc _ = ((join (fun j i => decide (i = j.1.1.id)) d.named (d.personIDs city)).filter
        fun j => isNamed ln.id fn.id j.1.1.1).length := by
        rw [namedRows, filter_map, length_map]
        congr 1
        refine filter_congr fun j hj => ?_
        obtain ⟨-, -, -, hfirst, hlast⟩ := mem_named.1 (mem_join.1 hj).1
        simp [isNamed, hfirst, hlast]
    _ = ((d.named.filter fun j => isNamed ln.id fn.id j.1.1).map
        fun j => (d.locations city j.1.1).length).sum := by
        have hlen := length_filter_join (fun (j : (PersonRow × AciX.NameRow) × AciX.NameRow) i =>
          decide (i = j.1.1.id)) (fun j => isNamed ln.id fn.id j.1.1) d.named (d.personIDs city)
        simpa only [count_personIDs h] using hlen
    _ = _ := by
        rw [← hpersons, map_map]
        rfl

theorem length_peopleNamed (l f : ℤ) :
    (d.peopleNamed city l f).length =
      ((d.persons.filter (isNamed l f)).filter
        fun p => 0 < (d.locations city p).length).length := by
  rw [peopleNamed, filter_filter]
  congr 1
  refine filter_congr fun p _ => ?_
  rw [Bool.and_comm]
  rcases d.locations city p with _ | ⟨x, xs⟩
  · simp
  · simp

theorem mem_lookupRows_update (h : d.Keys) {r : LookupRow}
    (hr : r ∈ (d.spCityLookupUpdate city).lookupRows city) :
    (∃ fn ∈ d.firstNames, fn.id = r.firstNameID) ∧ (∃ ln ∈ d.lastNames, ln.id = r.lastNameID) ∧
      r.personCount = (((d.persons.filter (isNamed r.lastNameID r.firstNameID)).map
        fun p => (d.locations city p).length).sum : ℕ) := by
  rw [lookupRows_update] at hr
  obtain ⟨b, hb, heq⟩ := mem_sync hr
  obtain ⟨n, hn, rfl⟩ := mem_tcitylookup hb
  simp only [LookupRow.cols, NamedRow.lookupRow, Prod.mk.injEq] at heq
  obtain ⟨-, -, hlast, hfirst, hcount⟩ := heq
  obtain ⟨j, hj, -, rfl⟩ := mem_namedRows.1 hn
  obtain ⟨-, hfn, hln, -⟩ := mem_named.1 hj
  refine ⟨⟨_, hfn, hfirst.symm⟩, ⟨_, hln, hlast.symm⟩, ?_⟩
  rw [hlast, hfirst, hcount, ← length_filter_namedRows h ⟨_, hln, rfl⟩ ⟨_, hfn, rfl⟩]
  congr 2
  refine filter_congr fun m hm => ?_
  rw [Bool.eq_iff_iff]
  simp only [decide_eq_true_eq, Bool.and_eq_true]
  constructor
  · intro hcols
    simp only [NamedRow.cols, Prod.mk.injEq] at hcols
    exact ⟨hcols.2.2.1, hcols.2.2.2⟩
  · rintro ⟨hl, hf⟩
    rw [eq_of_mem_namedRows h hm hn hl hf]

theorem exists_mem_lookupRows_update {n : NamedRow} (hn : n ∈ d.namedRows city) :
    ∃ r ∈ (d.spCityLookupUpdate city).lookupRows city,
      r.lastNameID = n.lastNameID ∧ r.firstNameID = n.firstNameID := by
  have hkey : n.cols ∈ groupKeys NamedRow.cols ((d.namedRows city).map (·, (1 : ℤ))) :=
    mem_groupKeys.2 ⟨(n, 1), mem_map.2 ⟨n, hn, rfl⟩, rfl⟩
  obtain ⟨g, hg, hcols⟩ := exists_mem_groupBy hkey
  have hfresh : g.1.lookupRow city g.2 ∈ d.tcitylookup city := mem_map.2 ⟨g, hg, rfl⟩
  obtain ⟨r, hr, heq⟩ : ∃ r ∈ sync LookupRow.cols LookupRow.null (d.tcitylookup city)
      (d.lookupRows city), r.cols = (g.1.lookupRow city g.2).cols := exists_mem_sync hfresh
  rw [lookupRows_update]
  simp only [NamedRow.cols, Prod.mk.injEq] at hcols
  simp only [LookupRow.cols, NamedRow.lookupRow, Prod.mk.injEq] at heq
  exact ⟨r, hr, heq.2.2.1.trans hcols.2.2.1, heq.2.2.2.1.trans hcols.2.2.2⟩

/-- The counts are numbers of persons exactly if no person with both names has two locations in the
city. -/
theorem counts_persons_iff (h : d.Keys) : d.CountsPersons city ↔ d.OneLocation city := by
  constructor
  · rintro hcount p hp ⟨fn, hfn, hfirst⟩ ⟨ln, hln, hlast⟩
    by_contra htwo
    have hmem : p.id ∈ d.personIDs city := by
      have hpos : 0 < ((d.personIDs city).filter fun i => i = p.id).length := by
        rw [count_personIDs h]
        omega
      obtain ⟨i, hi⟩ := exists_mem_of_length_pos hpos
      simp only [mem_filter, decide_eq_true_eq] at hi
      exact hi.2 ▸ hi.1
    obtain ⟨r, hr, hrl, hrf⟩ := exists_mem_lookupRows_update (mem_namedRows.2
      ⟨((p, fn), ln), mem_named.2 ⟨hp, hfn, hln, hfirst, hlast⟩, hmem, rfl⟩)
    obtain ⟨-, -, hsum⟩ := mem_lookupRows_update h hr
    rw [hcount r hr, length_peopleNamed, hrl, hrf] at hsum
    refine htwo ((sum_eq_length_filter_iff (fun p => (d.locations city p).length) _).1
      (by exact_mod_cast hsum.symm) p (mem_filter.2 ⟨hp, ?_⟩))
    simp [isNamed, hfirst, hlast]
  · intro hone r hr
    obtain ⟨⟨fn, hfn, hf⟩, ⟨ln, hln, hl⟩, hsum⟩ := mem_lookupRows_update h hr
    rw [hsum, length_peopleNamed, Nat.cast_inj, sum_eq_length_filter_iff]
    intro p hp
    obtain ⟨hp, hnamed⟩ := mem_filter.1 hp
    obtain ⟨hlast, hfirst⟩ : p.lastNameID = some r.lastNameID ∧
        p.firstNameID = some r.firstNameID := by simpa [isNamed] using hnamed
    exact hone p hp ⟨fn, hfn, by rw [hf, hfirst]⟩ ⟨ln, hln, by rw [hl, hlast]⟩

end Count

def springfield : City := ⟨6, 100⟩

def johnSmith (lastName : Text) (locations : List ℤ) : LookupDb where
  persons := [⟨1, none, some 7, none, some 9, none, none, none⟩]
  geo := [⟨1, some 100, some 6⟩, ⟨2, some 6, some 100⟩, ⟨3, some 6, some 100⟩]
  geoLocations := locations.map fun i => ⟨1, i, some 100⟩
  firstNames := [⟨7, some "John".toList⟩]
  lastNames := [⟨9, some "O'Smith".toList⟩]
  cityLookup := [⟨springfield, some lastName, some "john".toList, 9, 7, 1⟩,
    ⟨⟨6, 101⟩, some lastName, none, 9, 8, 4⟩]

theorem johnSmith_keys (lastName : Text) {locations : List ℤ} (h : locations.Nodup) :
    (johnSmith lastName locations).Keys where
  persons := by simp [johnSmith, Sql.Unique]
  geoLocations := by
    rw [johnSmith, Sql.Unique, map_map]
    exact h.map fun i j hij => by simpa [PersonGeoLocationRow.key] using hij
  geo := by simp [johnSmith, Sql.Unique]
  firstNames := by simp [johnSmith, Sql.Unique]
  lastNames := by simp [johnSmith, Sql.Unique]

theorem johnSmith_update :
    ((johnSmith "SMITH".toList [2, 3]).spCityLookupUpdate springfield).lookupRows springfield =
        [⟨springfield, some "OSmith".toList, some "John".toList, 9, 7, 2⟩] ∧
      ((((johnSmith "SMITH".toList [2, 3]).spCityLookupUpdate springfield).lookupRows
        springfield).map LookupRow.cols).Perm
        (((johnSmith "SMITH".toList [2, 3]).tcitylookup springfield).map LookupRow.cols) :=
  ⟨by decide, (spCityLookupUpdate_perm (johnSmith_keys _ (by decide)) (by decide)).1⟩

def caseless (r : LookupRow) : Option Text × Option Text × ℤ × ℤ × ℤ :=
  (r.lastName.map (·.map foldChar), r.firstName.map (·.map foldChar), r.lastNameID,
    r.firstNameID, r.personCount)

theorem blank_kept :
    ¬ ((((johnSmith "OSmith ".toList [2]).spCityLookupUpdate springfield).lookupRows
      springfield).map caseless).Perm
      (((johnSmith "OSmith ".toList [2]).tcitylookup springfield).map caseless) := by
  decide

theorem johnSmith_counted_once :
    (johnSmith "Smith".toList [1, 2]).CountsPersons springfield ∧
      ((johnSmith "Smith".toList [1, 2]).spCityLookupUpdate springfield).lookupRows springfield =
        [⟨springfield, some "OSmith".toList, some "John".toList, 9, 7, 1⟩] := by
  refine ⟨(counts_persons_iff (johnSmith_keys _ (by decide))).2 ?_, by decide⟩
  intro p hp _ _
  have hp : p = ⟨1, none, some 7, none, some 9, none, none, none⟩ := by simpa [johnSmith] using hp
  rw [hp]
  decide

theorem johnSmith_counted_twice :
    ((johnSmith "Smith".toList [2, 3]).spCityLookupUpdate springfield).lookupRows springfield =
        [⟨springfield, some "OSmith".toList, some "John".toList, 9, 7, 2⟩] ∧
      ¬ (johnSmith "Smith".toList [2, 3]).CountsPersons springfield := by
  unfold CountsPersons
  decide

end LookupDb

end AciX.Profile
