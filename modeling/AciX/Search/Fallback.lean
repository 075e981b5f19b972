import AciX.Search.Previews

/-!
# The read-only copy of the profile database

From a quarter past to a minute to the hour `FetchSearchResults` reads a copy of the database, and
means to ask the primary as well if the copy returns no rows. But `spSearchResultsGet` selects a row
of variables whether it has found anything or not, so that never happens (`fallsBack_iff`).
-/

namespace AciX.Profile

structure Server where
  store : Store
  isReadOnly : Bool := false

structure ProfileServers where
  profile : Text
  readOnlyProfile : Option Text := none
  opens : Text → Option Server

section Model

namespace Server

variable (s : Server) (q : PersonQuery) (firstNameID lastNameID : Option ℤ)

/-- The one row of `spSearchResultsGet`, which fails where it would have to enter a name. -/
def select : Except Exn FoundResults :=
  let r := s.store.spSearchResultsGet q.search q.visitID firstNameID lastNameID
  if s.isReadOnly ∧ r.2 ≠ s.store then .error .sql else .ok r.1

def executeQuery : Except Exn (List FoundResults) :=
  (s.select q firstNameID lastNameID).map fun row => [row]

def results : Option (List UInt8) :=
  (s.store.spSearchResultsGet q.search q.visitID firstNameID lastNameID).1.compressedResults

end Server

namespace ProfileServers

variable (servers : ProfileServers) (now : DateTime)

def readOnlyProfileConnectionString : Text := servers.readOnlyProfile.getD servers.profile

def secondaryToPrimaryProfileConnectionString : Text :=
  if 15 ≤ now.minute ∧ now.minute < 59 then servers.readOnlyProfileConnectionString
  else servers.profile

def connect : Text × Option Server :=
  match servers.opens (servers.secondaryToPrimaryProfileConnectionString now) with
  | some s => (servers.secondaryToPrimaryProfileConnectionString now, some s)
  | none => (servers.profile, servers.opens servers.profile)

variable (q : PersonQuery) (firstNameID lastNameID : Option ℤ)

def fetchSearchResults : Except Exn (List FoundResults) :=
  match servers.connect now with
  | (_, none) => .error .sql
  | (connectionString, some s) => do
    let dbResults ← s.executeQuery q firstNameID lastNameID
    if connectionString ≠ servers.profile ∧ dbResults.length = 0 then
      match servers.opens servers.profile with
      | none => .error .sql
      | some p => p.executeQuery q firstNameID lastNameID
    else return dbResults

/-- The primary can be opened and has results for the query. -/
def PrimaryHolds (row : FoundResults) : Prop :=
  ∃ p, servers.opens servers.profile = some p ∧ p.select q firstNameID lastNameID = .ok row ∧
    row.compressedResults ≠ none

/-- The results of the primary are returned if the secondary cannot be opened or has none. -/
def FallsBack : Prop :=
  ∀ row, servers.PrimaryHolds q firstNameID lastNameID row →
    (∀ s, servers.opens servers.readOnlyProfileConnectionString = some s →
      s.results q firstNameID lastNameID = none) →
    servers.fetchSearchResults now q firstNameID lastNameID = .ok [row]

/-- The copy is read: it is the time for it, and it is another database that can be opened. -/
def ReadsCopy (s : Server) : Prop :=
  15 ≤ now.minute ∧ now.minute < 59 ∧ servers.readOnlyProfileConnectionString ≠ servers.profile ∧
    servers.opens servers.readOnlyProfileConnectionString = some s

end ProfileServers

end Model

section Fetch

variable {servers : ProfileServers} {now : DateTime} {q : PersonQuery} {f l : Option ℤ}
  {s p : Server} {row : FoundResults}

theorem Server.results_of_select (h : s.select q f l = .ok row) :
    s.results q f l = row.compressedResults := by
  simp only [select] at h
  split_ifs at h
  exact congrArg _ (Except.ok.inj h)

theorem Server.select_of_executeQuery (h : s.executeQuery q f l = .ok [row]) :
    s.select q f l = .ok row := by
  unfold executeQuery at h
  rcases hselect : s.select q f l with e | row'
  · rw [hselect] at h
    cases h
  · rw [hselect] at h
    cases h
    rfl

namespace ProfileServers

theorem fetchSearchResults_of_connect {connectionString : Text}
    (h : servers.connect now = (connectionString, some s)) :
    servers.fetchSearchResults now q f l = s.executeQuery q f l := by
  simp only [fetchSearchResults, h, Server.executeQuery]
  rcases hselect : s.select q f l with e | row
  · rfl
  · have hone : ¬ (connectionString ≠ servers.profile ∧ [row].length = 0) := by simp
    exact if_neg hone

theorem connect_of_readsCopy (h : servers.ReadsCopy now s) :
    servers.connect now = (servers.readOnlyProfileConnectionString, some s) := by
  obtain ⟨hlo, hhi, -, hs⟩ := h
  have hstring : servers.secondaryToPrimaryProfileConnectionString now =
      servers.readOnlyProfileConnectionString := if_pos ⟨hlo, hhi⟩
  unfold connect
  rw [hstring, hs]

theorem connect_primary (h : ∀ s, ¬ servers.ReadsCopy now s)
    (hp : servers.opens servers.profile = some p) :
    servers.connect now = (servers.profile, some p) := by
  unfold connect secondaryToPrimaryProfileConnectionString
  split_ifs with htime
  · rcases hs : servers.opens servers.readOnlyProfileConnectionString with _ | s
    · simp only [hp]
    · have hsame : servers.readOnlyProfileConnectionString = servers.profile := by
        by_contra hne
        exact h s ⟨htime.1, htime.2, hne, hs⟩
      rw [hsame, hp] at hs
      simp only [hsame, hs]
  · simp only [hp]

/-- The two models of the call agree: the preview's is given what the copy answers, this one the
copy itself. -/
theorem fetchSearchResults_eq {R : Type} {w : PreviewWorld} {c : PreviewCall R}
    (hne : servers.readOnlyProfileConnectionString ≠ servers.profile)
    (hp : servers.opens servers.profile = some { store := w.store })
    (hcopy : c.copy = (servers.opens servers.readOnlyProfileConnectionString).map fun s =>
      s.select q (w.firstNameIDs q.firstName) (w.lastNameIDs q.lastName)) :
    servers.fetchSearchResults c.now q (w.firstNameIDs q.firstName) (w.lastNameIDs q.lastName) =
      (Profile.fetchSearchResults w c q).1.map fun row => [row] := by
  by_cases hread : ∃ s, servers.ReadsCopy c.now s
  · obtain ⟨s, hs⟩ := hread
    have hreads : c.reads = some (s.select q (w.firstNameIDs q.firstName)
        (w.lastNameIDs q.lastName)) := by
      rw [PreviewCall.reads, if_pos ⟨hs.1, hs.2.1⟩, hcopy, hs.2.2.2]
      rfl
    rw [fetchSearchResults_of_connect (connect_of_readsCopy hs), Profile.fetchSearchResults, hreads]
    rfl
  · have hreads : c.reads = none := by
      unfold PreviewCall.reads
      split_ifs with htime
      · rw [hcopy, Option.map_eq_none_iff]
        rcases hs : servers.opens servers.readOnlyProfileConnectionString with _ | s
        · rfl
        · exact absurd ⟨s, htime.1, htime.2, hne, hs⟩ hread
      · rfl
    rw [fetchSearchResults_of_connect (connect_primary (not_exists.1 hread) hp),
      Profile.fetchSearchResults, hreads]
    rfl

theorem results_of_fallsBack (h : servers.FallsBack now q f l) (hcopy : servers.ReadsCopy now s)
    (hrow : servers.PrimaryHolds q f l row) : s.results q f l ≠ none := by
  intro hnone
  have hfetch := h row hrow fun s' hs' => by
    obtain rfl := Option.some.inj (hcopy.2.2.2.symm.trans hs')
    exact hnone
  rw [fetchSearchResults_of_connect (connect_of_readsCopy hcopy)] at hfetch
  obtain ⟨p, -, -, hsome⟩ := hrow
  rw [← Server.results_of_select (Server.select_of_executeQuery hfetch), hnone] at hsome
  exact hsome rfl

/-- The primary is fallen back on if and only if the copy, when it is read, has what the primary
has. -/
theorem fallsBack_iff : servers.FallsBack now q f l ↔
    ∀ s row, servers.ReadsCopy now s → servers.PrimaryHolds q f l row → s.results q f l ≠ none := by
  refine ⟨fun h s row => results_of_fallsBack h, fun h row hrow hsecondary => ?_⟩
  have hread : ∀ s, ¬ servers.ReadsCopy now s := fun s hs =>
    h s row hs hrow (hsecondary s hs.2.2.2)
  obtain ⟨p, hp, hselect, -⟩ := hrow
  rw [fetchSearchResults_of_connect (connect_primary hread hp), Server.executeQuery, hselect]
  rfl

def delayed : ProfileServers where
  profile := ['p']
  readOnlyProfile := some ['s']
  opens connectionString :=
    if connectionString = ['p'] then
      some { store := (({} : Store).spSearchResultsSave (Store.johnSmith ['q'])).2 }
    else some { store := {} }

def johnSmithQuery : PersonQuery where
  searchType := 1
  firstName := "John".toList
  middleName := some ['q']
  lastName := "Smith".toList
  state := some "ca".toList

theorem delayed_not_fallsBack : ¬ delayed.FallsBack
    { month := 24179, day := 12, ticks := 18000000000 } johnSmithQuery none none := by
  intro h
  have hholds : delayed.PrimaryHolds johnSmithQuery none none _ := ⟨_, rfl, rfl, by decide⟩
  have hcopy : delayed.ReadsCopy { month := 24179, day := 12, ticks := 18000000000 }
      { store := {} } := ⟨by decide, by decide, by decide, rfl⟩
  exact results_of_fallsBack h hcopy hholds rfl

end ProfileServers

end Fetch

end AciX.Profile
