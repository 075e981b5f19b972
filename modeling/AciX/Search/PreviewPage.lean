import AciX.Search.Previews
import AciX.Sort
import AciX.User.SignIn

/-!
# The page of previews

`search/preview` sorts the profiles of a response by the texts of their ages and leaves one address
for each text of a city, a comma and the state. The page is a sorted and reduced view of the
response if the texts of the ages are in the order of the numbers, and the texts of the cities are
told apart (`view_iff`).
-/

namespace AciX.Profile

open List Sql

/-- The order of texts in the current culture. Digits are compared one by one. -/
structure TextOrder where
  le : Text → Text → Bool
  total : ∀ s t, le s t = true ∨ le t s = true
  trans : ∀ s t u, le s t = true → le t u = true → le s u = true
  digits : ∀ s t : Text, s.all Char.isDigit = true → t.all Char.isDigit = true →
    (le s t = true ↔ s ≤ t)

structure DateOfBirth where
  age : Option Text := none

structure Address where
  city : Option Text := none
  state : Option Text := none
  deriving DecidableEq

structure PersonProfile (δ : Type) where
  dateOfBirth : Option DateOfBirth := none
  addresses : Option (Option (List Address)) := none
  rest : δ

structure ProfileResponse (δ : Type) where
  profiles : Option (Option (List (PersonProfile δ))) := none

structure SearchResultsPage (δ : Type) where
  queryID : ℤ := 0
  profiles : Option (Option (List (PersonProfile δ))) := none

section Model

def TextOrder.leNull (o : TextOrder) : Option Text → Option Text → Bool
  | none, _ => true
  | some _, none => false
  | some s, some t => o.le s t

variable {δ : Type}

def PersonProfile.sortKey (p : PersonProfile δ) : Option Text :=
  (p.dateOfBirth.getD { age := some ['9', '9', '9'] }).age

def Address.key (a : Address) : Text := a.city.getD [] ++ ',' :: a.state.getD []

local instance : LawfulBEq Text := inferInstance

def reduceFrom (dictCities : List Text) : List Address → List Address
  | [] => []
  | a :: addresses =>
    if a.key ∈ dictCities then reduceFrom dictCities addresses
    else { city := a.city, state := a.state } :: reduceFrom (a.key :: dictCities) addresses

def PersonProfile.reduce (p : PersonProfile δ) : PersonProfile δ :=
  { p with addresses := p.addresses.map (·.map (reduceFrom [])) }

variable (o : TextOrder)

def sortProfiles (profiles : List (PersonProfile δ)) : List (PersonProfile δ) :=
  profiles.insertionSort fun p q => o.leNull p.sortKey q.sortKey = true

def previewPage (w : World) (v : DBVisit) (state : Option Text) :
    Option (Preview (ProfileResponse δ)) → World × Except Exn (SearchResultsPage δ)
  | none => (w, .error .nullReference)
  | some p =>
    match p.response.profiles with
    | some (some profiles) =>
      (w.setQuery v state p.queryID,
        .ok { queryID := p.queryID
              profiles := some (some ((sortProfiles o profiles).map PersonProfile.reduce)) })
    | _ => (w, .ok { queryID := p.queryID })

end Model

section Statement

variable {δ : Type}

def number (s : Text) : ℕ := s.foldl (fun n c => 10 * n + (c.toNat - '0'.toNat)) 0

def PersonProfile.knownAge (p : PersonProfile δ) : Option ℕ :=
  ((p.dateOfBirth.bind (·.age)).filter fun s => !s.isEmpty && s.all Char.isDigit).map number

def Precedes (p q : PersonProfile δ) : Prop :=
  (∀ a ∈ p.knownAge, ∀ b ∈ q.knownAge, a ≤ b) ∧ (p.dateOfBirth = none → q.dateOfBirth = none)

def PersonProfile.oneEach (p : PersonProfile δ) : PersonProfile δ :=
  { p with addresses := p.addresses.map (·.map (distinctOn id)) }

/-- The profiles in an order by age, each with one address for each city. -/
def IsView (profiles page : List (PersonProfile δ)) : Prop :=
  ∃ sorted : List (PersonProfile δ), sorted.Perm profiles ∧ sorted.Pairwise Precedes ∧
    page = sorted.map PersonProfile.oneEach

def PersonProfile.TellsCities (p : PersonProfile δ) : Prop :=
  ∀ addresses, p.addresses = some (some addresses) →
    ∀ a ∈ addresses, ∀ b ∈ addresses, a.key = b.key → a = b

end Statement

section Cities

variable {δ : Type} {p : PersonProfile δ} {addresses : List Address}

theorem reduceFrom_eq (dictCities : List Text) : ∀ addresses : List Address,
    reduceFrom dictCities addresses =
      (distinctOn Address.key addresses).filter fun a => a.key ∉ dictCities
  | [] => rfl
  | a :: addresses => by
    rw [reduceFrom, distinctOn]
    split_ifs with h
    · rw [reduceFrom_eq dictCities addresses, filter_cons_of_neg (by simpa using h), filter_filter]
      refine filter_congr fun b _ => ?_
      by_cases hb : b.key = a.key
      · simp [hb, h]
      · simp [hb]
    · rw [reduceFrom_eq (a.key :: dictCities) addresses, filter_cons_of_pos (by simpa using h),
        filter_filter]
      refine congrArg _ (filter_congr fun b _ => ?_)
      simp [Bool.and_comm]

theorem reduceFrom_nil (addresses : List Address) :
    reduceFrom [] addresses = distinctOn Address.key addresses := by
  rw [reduceFrom_eq]
  exact filter_eq_self.2 fun a _ => by simp

theorem length_distinctOn {α γ : Type*} [DecidableEq γ] (key : α → γ) (rows : List α) :
    (distinctOn key rows).length = (rows.map key).toFinset.card := by
  have hmem : ((distinctOn key rows).map key).toFinset = (rows.map key).toFinset := by
    ext k
    simp only [mem_toFinset, mem_map]
    constructor
    · rintro ⟨a, ha, hk⟩
      exact ⟨a, mem_of_mem_distinctOn ha, hk⟩
    rintro ⟨a, ha, hk⟩
    have hex : ∃ b ∈ distinctOn key rows, key b = key a := exists_mem_distinctOn ha
    obtain ⟨b, hb, heq⟩ := hex
    exact ⟨b, hb, heq.trans hk⟩
  rw [← hmem, toFinset_card_of_nodup (unique_distinctOn rows), length_map]

theorem toFinset_map_key (addresses : List Address) :
    (addresses.map Address.key).toFinset = (addresses.map id).toFinset.image Address.key := by
  ext k
  simp

theorem length_reduce_le (addresses : List Address) :
    (reduceFrom [] addresses).length ≤ (distinctOn id addresses).length ∧
      ((reduceFrom [] addresses).length = (distinctOn id addresses).length →
        ∀ a ∈ addresses, ∀ b ∈ addresses, a.key = b.key → a = b) := by
  rw [reduceFrom_nil, length_distinctOn, length_distinctOn, toFinset_map_key]
  refine ⟨Finset.card_image_le, fun h a ha b hb hkey => ?_⟩
  exact Finset.card_image_iff.1 h (by simpa using ha) (by simpa using hb) hkey

def PersonProfile.cities (p : PersonProfile δ) : ℕ :=
  ((p.addresses.bind id).getD []).length

theorem cities_reduce_le (p : PersonProfile δ) : p.reduce.cities ≤ p.oneEach.cities := by
  unfold PersonProfile.cities PersonProfile.reduce PersonProfile.oneEach
  rcases p.addresses with _ | _ | addresses
  · exact le_rfl
  · exact le_rfl
  · exact (length_reduce_le addresses).1

theorem tellsCities_of_cities (h : p.reduce.cities = p.oneEach.cities) : p.TellsCities := by
  intro addresses hp
  unfold PersonProfile.cities PersonProfile.reduce PersonProfile.oneEach at h
  rw [hp] at h
  exact (length_reduce_le addresses).2 h

theorem reduce_eq_oneEach (h : p.TellsCities) : p.reduce = p.oneEach := by
  unfold PersonProfile.reduce PersonProfile.oneEach
  rcases hp : p.addresses with _ | _ | addresses
  · rfl
  · rfl
  · have hcities : reduceFrom [] addresses = distinctOn id addresses := by
      rw [reduceFrom_nil]
      exact distinctOn_congr fun a ha b hb => ⟨h addresses hp a ha b hb, congrArg _⟩
    simp only [Option.map_some, hcities]

end Cities

section View

variable {δ : Type} {o : TextOrder} {profiles : List (PersonProfile δ)}

theorem leNull_total (o : TextOrder) (s t : Option Text) :
    o.leNull s t = true ∨ o.leNull t s = true := by
  rcases s with _ | s
  · exact .inl rfl
  · rcases t with _ | t
    · exact .inr rfl
    · exact o.total s t

theorem leNull_trans (o : TextOrder) (s t u : Option Text) (h : o.leNull s t = true)
    (h' : o.leNull t u = true) : o.leNull s u = true := by
  rcases s with _ | s
  · rfl
  · rcases t with _ | t
    · cases h
    · rcases u with _ | u
      · cases h'
      · exact o.trans s t u h h'

def Placed (o : TextOrder) : PersonProfile δ → PersonProfile δ → Prop :=
  InOrder (fun p q => o.leNull p.sortKey q.sortKey = true) Precedes

theorem pairwise_sortProfiles_iff :
    (sortProfiles o profiles).Pairwise Precedes ↔ profiles.Pairwise (Placed o) :=
  pairwise_insertionSort_iff (fun p q => leNull_total o p.sortKey q.sortKey)
    (fun p q r => leNull_trans o p.sortKey q.sortKey r.sortKey) profiles

theorem pairwise_precedes_congr {l l' : List (PersonProfile δ)}
    (h : l.map (·.dateOfBirth) = l'.map (·.dateOfBirth)) (hl : l.Pairwise Precedes) :
    l'.Pairwise Precedes := by
  let P (d e : Option DateOfBirth) : Prop :=
    Precedes { dateOfBirth := d, rest := () } { dateOfBirth := e, rest := () }
  have hP : (l.map (·.dateOfBirth)).Pairwise P := pairwise_map.2 hl
  rw [h] at hP
  have hl' := pairwise_map.1 hP
  exact hl'

theorem isView_iff : IsView profiles ((sortProfiles o profiles).map PersonProfile.reduce) ↔
    profiles.Pairwise (Placed o) ∧ ∀ p ∈ profiles, p.TellsCities := by
  have hperm : (sortProfiles o profiles).Perm profiles := perm_insertionSort _ _
  rw [← pairwise_sortProfiles_iff]
  constructor
  · rintro ⟨sorted, hsorted, hpairwise, heq⟩
    refine ⟨pairwise_precedes_congr ?_ hpairwise, fun p hp => ?_⟩
    · have hdob := congrArg (List.map (·.dateOfBirth)) heq
      rw [map_map, map_map] at hdob
      exact hdob.symm
    · have hsum := congrArg (fun l => (l.map PersonProfile.cities).sum) heq
      simp only [map_map] at hsum
      rw [((hsorted.trans hperm.symm).map _).sum_eq] at hsum
      exact tellsCities_of_cities (map_eq_of_sum_eq (fun p _ => cities_reduce_le p) hsum p
        (hperm.mem_iff.2 hp))
  · rintro ⟨hpairwise, htells⟩
    refine ⟨sortProfiles o profiles, hperm, hpairwise, map_congr_left fun p hp => ?_⟩
    exact reduce_eq_oneEach (htells p (hperm.mem_iff.1 hp))

/-- The page is a view of the response if and only if every two profiles are placed by the texts of
their ages, and every profile tells its cities apart. -/
theorem view_iff (w : World) (v : DBVisit) (state : Option Text)
    (p : Preview (ProfileResponse δ)) (hp : p.response.profiles = some (some profiles)) :
    (∃ page out, (previewPage o w v state (some p)).2 = .ok page ∧
        page.profiles = some (some out) ∧ IsView profiles out) ↔
      profiles.Pairwise (Placed o) ∧ ∀ p ∈ profiles, p.TellsCities := by
  rw [← isView_iff]
  simp only [previewPage, hp]
  constructor
  · rintro ⟨page, out, hpage, hout, hview⟩
    cases hpage
    cases hout
    exact hview
  · exact fun hview => ⟨_, _, rfl, rfl, hview⟩

end View

theorem ordinal_total (s t : Text) : decide (s ≤ t) = true ∨ decide (t ≤ s) = true := by
  simpa using le_total s t

theorem ordinal_trans (s t u : Text) (h : decide (s ≤ t) = true) (h' : decide (t ≤ u) = true) :
    decide (s ≤ u) = true := by
  simp only [decide_eq_true_eq] at h h' ⊢
  exact h.trans h'

def ordinal : TextOrder where
  le s t := decide (s ≤ t)
  total := ordinal_total
  trans := ordinal_trans
  digits s t _ _ := by simp

def aged (age : Option Text) : PersonProfile Unit :=
  { dateOfBirth := age.map fun age => { age := some age }
    addresses := some (some [⟨some ['B', 'o', 'n', 'n'], some ['T', 'X']⟩])
    rest := () }

def responseWith (ages : List (Option Text)) : Preview (ProfileResponse Unit) :=
  { response := { profiles := some (some (ages.map aged)) }, fullNameHits := 0, queryID := 7 }

theorem tellsCities_aged (age : Option Text) : (aged age).TellsCities := by
  intro addresses h a ha b hb _
  cases h
  rw [mem_singleton.1 ha, mem_singleton.1 hb]

def noWorld : World := { db := {}, orderCache := fun _ _ => none, visitCache := fun _ => none }

def someVisit : DBVisit :=
  { visitID := 1, visitGuid := ⟨"0f8fad5b-d9cb-469f-a165-70867728950e".toList, Guid.shape_first⟩
    siteID := 1 }

def youngAndUnknown : List (Option Text) := [none, some ['3', '5'], some ['2', '1']]

theorem youngAndUnknown_view :
    (responseWith youngAndUnknown).response.profiles = some (some (youngAndUnknown.map aged)) ∧
    ∃ page out, (previewPage ordinal noWorld someVisit none
        (some (responseWith youngAndUnknown))).2 = .ok page ∧
      page.profiles = some (some out) ∧ IsView (youngAndUnknown.map aged) out := by
  refine ⟨rfl, (view_iff noWorld someVisit none (responseWith youngAndUnknown) rfl).2
    ⟨?_, fun p hp => ?_⟩⟩
  · unfold Placed InOrder Precedes
    decide
  · obtain ⟨age, -, rfl⟩ := mem_map.1 hp
    exact tellsCities_aged age

def nineAndFortyTwo : List (Option Text) := [some ['9'], some ['4', '2']]

theorem nineAndFortyTwo_not_view : ¬ ∃ o page out,
    (previewPage o noWorld someVisit none (some (responseWith nineAndFortyTwo))).2 = .ok page ∧
      page.profiles = some (some out) ∧ IsView (nineAndFortyTwo.map aged) out := by
  rintro ⟨o, page, out, hpage, hout, hview⟩
  cases hpage
  cases hout
  have hplaced := (isView_iff.1 hview).1
  have hle : o.le ['9'] ['4', '2'] = false := by
    rw [Bool.eq_false_iff, ne_eq, o.digits _ _ (by decide) (by decide)]
    decide
  have hpair : Placed o (aged (some ['9'])) (aged (some ['4', '2'])) :=
    (pairwise_cons.1 hplaced).1 _ (mem_singleton_self _)
  have hnine : Precedes (aged (some ['4', '2'])) (aged (some ['9'])) := by
    rw [Placed, InOrder, if_neg (by simp [TextOrder.leNull, PersonProfile.sortKey, aged, hle])]
      at hpair
    exact hpair
  have hage := hnine.1 42 (by decide) 9 (by decide)
  omega

end AciX.Profile
