import AciX.Sql.Rows

/-!
# The place of an address

`fnGeoLocationIDFromIpAddrInt` looks for the range that contains an address; `spVisitInfoGet2` takes
the last range that starts at the address or before it, and does not ask where that range ends. For
disjoint ranges the two agree except for an address in a gap (`lookups_agree_iff`).
-/

namespace AciX

open Sql

structure GeoIpRow where
  intIpAddrStart : Option ℤ
  intIpAddrEnd : Option ℤ
  geoLocationID : Option ℤ
  deriving DecidableEq

structure GeoPlaceRow (P : Type) where
  geoLocationID : ℤ
  place : P

structure VisitInfo (P : Type) where
  intIpAddress : Option ℤ := none
  geoLocationID : Option ℤ := none
  place : Option P := none

namespace GeoIpRow

def startsBy (i : ℤ) (r : GeoIpRow) : Bool := r.intIpAddrStart.any (· ≤ i)

def contains (i : ℤ) (r : GeoIpRow) : Bool := r.startsBy i && r.intIpAddrEnd.any (· > i)

end GeoIpRow

section Model

variable (geoIP : List GeoIpRow)

def fnGeoLocationIDFromIpAddrInt (intIpAddr : Option ℤ) : Option ℤ :=
  (selectLast (fun r => intIpAddr.any (r.contains ·)) geoIP).bind (·.geoLocationID)

def lastStart (i : ℤ) : Option GeoIpRow :=
  top (fun r => r.intIpAddrStart.getD i) (geoIP.filter (·.startsBy i))

/-- The parameter keeps the value it is given if there is no such range. -/
def lookupGeoLocationID (intIpAddress given : Option ℤ) : Option ℤ :=
  match intIpAddress.bind (lastStart geoIP) with
  | some r => r.geoLocationID
  | none => given

def spVisitInfoGet2 {P : Type} (ipAddrToInt : Text → Option ℤ) (places : List (GeoPlaceRow P))
    (stringIpAddress : Text) (given : VisitInfo P) : VisitInfo P :=
  let intIpAddress := ipAddrToInt (varchar 20 stringIpAddress)
  let geoLocationID := lookupGeoLocationID geoIP intIpAddress given.geoLocationID
  { intIpAddress := intIpAddress
    geoLocationID := geoLocationID
    place := ((selectLast (fun p => geoLocationID = some p.geoLocationID) places).map
      (·.place)).or given.place }

end Model

structure Ranges (geoIP : List GeoIpRow) : Prop where
  range : ∀ r ∈ geoIP, ∃ s e, r.intIpAddrStart = some s ∧ r.intIpAddrEnd = some e ∧ s < e
  disjoint : geoIP.Pairwise fun r r' => ∀ i, ¬(r.contains i = true ∧ r'.contains i = true)

section Lookup

variable {geoIP : List GeoIpRow} {i : ℤ} {r : GeoIpRow}

theorem Ranges.eq (h : Ranges geoIP) {r' : GeoIpRow} (hr : r ∈ geoIP) (hr' : r' ∈ geoIP)
    (hi : r.contains i = true) (hi' : r'.contains i = true) : r = r' := by
  by_contra hne
  have hsymm : Std.Symm fun r r' : GeoIpRow =>
      ∀ i, ¬(r.contains i = true ∧ r'.contains i = true) := ⟨fun _ _ h i hi => h i hi.symm⟩
  exact h.disjoint.forall hr hr' hne i ⟨hi, hi'⟩

theorem mem_lastStart (h : lastStart geoIP i = some r) :
    r ∈ geoIP ∧ r.startsBy i = true ∧ ∀ r' ∈ geoIP, r'.startsBy i = true →
      r'.intIpAddrStart.getD i ≤ r.intIpAddrStart.getD i := by
  obtain ⟨hmem, hmax⟩ := top_mem h
  obtain ⟨hr, hs⟩ := List.mem_filter.1 hmem
  exact ⟨hr, hs, fun r' hr' hs' => hmax r' (List.mem_filter.2 ⟨hr', hs'⟩)⟩

theorem lastStart_eq_none : lastStart geoIP i = none ↔ ∀ r ∈ geoIP, r.startsBy i = false := by
  simp [lastStart, top_eq_none, List.filter_eq_nil_iff]

theorem Ranges.lastStart_eq (h : Ranges geoIP) (hr : r ∈ geoIP) (hi : r.contains i = true) :
    lastStart geoIP i = some r := by
  rcases hlast : lastStart geoIP i with _ | r'
  · have hnone := lastStart_eq_none.1 hlast r hr
    rw [GeoIpRow.contains, hnone] at hi
    cases hi
  · obtain ⟨hr', hs', hmax⟩ := mem_lastStart hlast
    obtain ⟨s, e, hrs, hre, -⟩ := h.range r hr
    obtain ⟨s', e', hrs', hre', hlt'⟩ := h.range r' hr'
    simp only [GeoIpRow.contains, GeoIpRow.startsBy, hrs, hre, Option.any_some, Bool.and_eq_true,
      decide_eq_true_eq] at hi
    have hle := hmax r hr (by simp [GeoIpRow.startsBy, hrs, hi.1])
    simp only [GeoIpRow.startsBy, hrs', Option.any_some, decide_eq_true_eq] at hs'
    simp only [hrs, hrs', Option.getD_some] at hle
    -- the start of the last range is in both
    refine congrArg some (h.eq (i := s') hr' hr ?_ ?_)
    · simpa [GeoIpRow.contains, GeoIpRow.startsBy, hrs', hre'] using hlt'
    · simp only [GeoIpRow.contains, GeoIpRow.startsBy, hrs, hre, Option.any_some,
        Bool.and_eq_true, decide_eq_true_eq]
      omega

theorem Ranges.fn_eq (h : Ranges geoIP) (hr : r ∈ geoIP) (hi : r.contains i = true) :
    fnGeoLocationIDFromIpAddrInt geoIP (some i) = r.geoLocationID := by
  obtain ⟨r', hr'⟩ := selectLast_isSome (p := (·.contains i)) hr hi
  obtain ⟨hmem, hi'⟩ := selectLast_mem hr'
  have hfn : fnGeoLocationIDFromIpAddrInt geoIP (some i) =
      (selectLast (·.contains i) geoIP).bind (·.geoLocationID) := rfl
  rw [hfn, hr', h.eq hmem hr hi' hi]
  rfl

theorem fn_eq_none (h : ∀ r ∈ geoIP, r.contains i = false) :
    fnGeoLocationIDFromIpAddrInt geoIP (some i) = none := by
  have hnone : selectLast (·.contains i) geoIP = none := selectLast_none.2 h
  show (selectLast (·.contains i) geoIP).bind (·.geoLocationID) = none
  rw [hnone]
  rfl

end Lookup

section Agreement

variable {P : Type} (geoIP : List GeoIpRow) (ipAddrToInt : Text → Option ℤ)

/-- Both lookups give the same location, and none if no range contains the address. -/
def LookupsAgree (places : List (GeoPlaceRow P)) (stringIpAddress : Text) (given : VisitInfo P) :
    Prop :=
  let info := spVisitInfoGet2 geoIP ipAddrToInt places stringIpAddress given
  info.geoLocationID = fnGeoLocationIDFromIpAddrInt geoIP info.intIpAddress ∧
    ((∀ r ∈ geoIP, info.intIpAddress.all fun i => !r.contains i) → info.geoLocationID = none)

/-- The address is in one of the ranges. Or it is in none, and the last range before it has no
location, or there is none before it and the parameter is given as `NULL`. -/
def NoGap (intIpAddress given : Option ℤ) : Prop :=
  (∃ i, intIpAddress = some i ∧ ∃ r ∈ geoIP, r.contains i = true) ∨
    match intIpAddress.bind (lastStart geoIP) with
    | some r => r.geoLocationID = none
    | none => given = none

variable {geoIP ipAddrToInt}

/-- Both lookups give the same location exactly if the address is in no gap between ranges. -/
theorem lookups_agree_iff (h : Ranges geoIP) (places : List (GeoPlaceRow P))
    (stringIpAddress : Text) (given : VisitInfo P) :
    LookupsAgree geoIP ipAddrToInt places stringIpAddress given ↔
      NoGap geoIP (ipAddrToInt (varchar 20 stringIpAddress)) given.geoLocationID := by
  simp only [LookupsAgree, spVisitInfoGet2]
  rcases ipAddrToInt (varchar 20 stringIpAddress) with _ | i
  · have hfn : fnGeoLocationIDFromIpAddrInt geoIP none = none := by
      have hnone : selectLast (fun _ : GeoIpRow => false) geoIP = none :=
        selectLast_none.2 fun _ _ => rfl
      show (selectLast (fun _ : GeoIpRow => false) geoIP).bind _ = none
      rw [hnone]
      rfl
    simp [NoGap, lookupGeoLocationID, hfn]
  by_cases hin : ∃ r ∈ geoIP, r.contains i = true
  · refine iff_of_true ?_ (.inl ⟨i, rfl, hin⟩)
    obtain ⟨r, hr, hi⟩ := hin
    refine ⟨?_, fun hnone => ?_⟩
    · rw [h.fn_eq hr hi, lookupGeoLocationID, Option.bind_some, h.lastStart_eq hr hi]
    · have := hnone r hr
      simp [hi] at this
  · have hnone : ∀ r ∈ geoIP, r.contains i = false := by simpa using hin
    rw [fn_eq_none hnone]
    have hgap : NoGap geoIP (some i) given.geoLocationID ↔
        lookupGeoLocationID geoIP (some i) given.geoLocationID = none := by
      simp only [NoGap, lookupGeoLocationID]
      have hno : ¬∃ j, some i = some j ∧ ∃ r ∈ geoIP, r.contains j = true := by
        rintro ⟨j, hj, hr⟩
        cases hj
        exact hin hr
      rcases (some i).bind (lastStart geoIP) with _ | r <;> simp only [hno, false_or]
    rw [hgap]
    exact ⟨fun hagree => hagree.1, fun heq => ⟨heq, fun _ => heq⟩⟩

end Agreement

def twoRanges : List GeoIpRow := [⟨some 10, some 20, some 1⟩, ⟨some 30, some 40, some 2⟩]

theorem ranges_twoRanges : Ranges twoRanges := by
  refine ⟨by simp [twoRanges], ?_⟩
  simp only [twoRanges, List.pairwise_cons, List.mem_singleton, List.not_mem_nil, false_imp_iff,
    implies_true, List.Pairwise.nil, and_true, forall_eq]
  intro i
  simp only [GeoIpRow.contains, GeoIpRow.startsBy, Option.any_some, Bool.and_eq_true,
    decide_eq_true_eq]
  omega

theorem lookups_agree_in_range :
    LookupsAgree (P := Unit) twoRanges (fun _ => some 15) [] "0.0.0.15".toList {} := by
  refine (lookups_agree_iff ranges_twoRanges [] _ {}).2 (.inl ⟨15, rfl, ?_⟩)
  exact ⟨⟨some 10, some 20, some 1⟩, by decide, by decide⟩

theorem lookups_differ_in_gap :
    Ranges twoRanges ∧
      ¬LookupsAgree (P := Unit) twoRanges (fun _ => some 25) [] "0.0.0.25".toList {} := by
  refine ⟨ranges_twoRanges, fun h => ?_⟩
  have hloc : some 1 = fnGeoLocationIDFromIpAddrInt twoRanges (some 25) := h.1
  exact absurd hloc (by decide)

end AciX
