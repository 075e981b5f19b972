import AciX.Calendar
import AciX.Search.Names
import AciX.Sql.Case

/-!
# Stored search results

`SearchResults` has a row for each search made, keyed by the numbers of the names, the middle
initial, the state and the type of the search; the results are in the table of another database,
`IwsCache`. Saving keeps the letters of the state and the first letter of the middle name; reading
takes the whole middle name and the state without the blanks around it. A search has at most one row
(`Wf.row_eq`, `Wf.top1_hasKey`).
-/

namespace AciX.Sql

def top1 {α : Type*} (id : α → ℤ) (p : α → Bool) (rows : List α) : Option α :=
  ((rows.filter p).insertionSort (id · ≤ id ·)).head?

end AciX.Sql

namespace AciX.Profile

open List Sql

structure SearchResultsRow where
  id : ℤ
  searchType : Int16
  firstNameID : ℤ
  lastNameID : ℤ
  middleInitial : Text
  state : Text
  directoryType : Option Text := none
  directoryID : Option ℤ := none
  visitID : Option ℤ := none
  numResults : Option ℤ := none
  queryDurationMsecs : Option ℤ := none
  dateCreated : Option DateTime := none
  apiSource : Option Text := none
  resultsAreEmpty : Option Bool := none
  dateConsumed : Option DateTime := none
  listProfileIDs : Option Text := none
  dateCached : Option DateTime := none
  fileSize : Option ℤ := none
  deriving DecidableEq

structure IwsCacheRow where
  queryID : ℤ
  compressedResults : Option (List UInt8)
  deriving DecidableEq

structure FullNameRow where
  firstNameID : Option ℤ
  lastNameID : Option ℤ
  middleInitial : Option Text
  hits : Option ℤ
  deriving DecidableEq

structure OptOutRow where
  firstName : Text
  lastName : Text
  state : Option Text
  optOutDate : DateTime
  deriving DecidableEq

/-- The tables the procedures read or write, and the next value of the sequence `QueryID`. -/
structure Store where
  firstNames : NameTable := {}
  lastNames : NameTable := {}
  rejectedNames : List Text := []
  searchResults : List SearchResultsRow := []
  iwsCache : List IwsCacheRow := []
  fullNames : List FullNameRow := []
  optOuts : List OptOutRow := []
  nextQueryID : ℤ := 259000000
  deriving DecidableEq

structure Key where
  searchType : Int16
  firstName : Text
  lastName : Text
  middleInitial : Text
  state : Text

structure SearchQuery where
  searchType : Option Int16
  firstName : Text
  middleName : Option Text
  lastName : Text
  state : Option Text

structure SaveCall extends SearchQuery where
  compressedResults : Option (List UInt8) := none
  visitID : Option ℤ := none
  numResults : Option ℤ := none
  queryDurationMsecs : Option ℤ := none
  apiSource : Option Text := some "iws1.0".toList
  resultsAreEmpty : Option Bool := some false
  fileSize : Option ℤ := none
  now : DateTime

structure SaveAnswer where
  queryID : ℤ
  fullNameHits : Option ℤ := none

/-- The row `spSearchResultsGet` selects, of variables that are `NULL` if it found nothing. -/
structure FoundResults where
  queryID : Option ℤ
  searchType : Int16
  firstNameID : ℤ
  lastNameID : ℤ
  middleInitial : Option Text
  state : Text
  directoryType : Option Text
  directoryID : Option ℤ
  visitID : Option ℤ
  numResults : Option ℤ
  queryDurationMsecs : Option ℤ
  dateCreated : Option DateTime
  apiSource : Option Text
  resultsAreEmpty : Option Bool
  dateConsumed : Option DateTime
  listProfileIDs : Option Text
  dateCached : Option DateTime
  fileSize : Option ℤ
  compressedResults : Option (List UInt8)
  fullNameHits : Option ℤ

section Model

def fnAlphaOnly (input : Option Text) : Text :=
  match input with
  | none => []
  | some s =>
    ((rtrim (varchar 255 s)).map foldChar).filter fun c => 'a' ≤ c && c ≤ 'z'

namespace SearchQuery

variable (q : SearchQuery)

def saveKey : Key where
  searchType := q.searchType.getD 0
  firstName := varchar 30 q.firstName
  lastName := varchar 30 q.lastName
  middleInitial := char 1 (toUpper (fnAlphaOnly (q.middleName.map (varchar 30))))
  state := toUpper (fnAlphaOnly (q.state.map (varchar 2)))

/-- The parameters of `spSearchResultsGet` and `spSearchResultsExists`, as they compare them. -/
def readKey : Key where
  searchType := q.searchType.getD 0
  firstName := varchar 30 q.firstName
  lastName := varchar 30 q.lastName
  middleInitial := toUpper ((q.middleName.map (varchar 30)).getD [])
  state := toUpper (rtrim (ltrim ((q.state.map (varchar 2)).getD [])))

end SearchQuery

namespace SearchResultsRow

def hasKey (r : SearchResultsRow) (firstNameID lastNameID : ℤ) (k : Key) : Bool :=
  r.firstNameID = firstNameID && r.lastNameID = lastNameID &&
    textEq r.middleInitial k.middleInitial && textEq r.state k.state &&
    r.searchType = k.searchType

def hasResults (r : SearchResultsRow) : Bool :=
  !r.resultsAreEmpty.getD false && (textEq (r.apiSource.getD []) "iws3.0".toList ||
    textEq (r.apiSource.getD []) "iws3.0+".toList)

def saved (r : SearchResultsRow) (c : SaveCall) : SearchResultsRow :=
  { r with
    dateCached := some c.now
    visitID := c.visitID
    numResults := c.numResults
    queryDurationMsecs := c.queryDurationMsecs.or r.queryDurationMsecs
    apiSource := c.apiSource.map (varchar 10)
    directoryType := some ['R']
    resultsAreEmpty := some (!(c.resultsAreEmpty == some false && c.compressedResults.isSome))
    fileSize := c.fileSize }

end SearchResultsRow

def fitsSmallint (n : Option ℤ) : Bool := n.all fun n => -32768 ≤ n && n ≤ 32767

namespace Store

variable (s : Store)

/-- The numbers of the names, given or looked up, and the tables with the names entered. -/
def resolve (firstNameID lastNameID : Option ℤ) (k : Key) : ℤ × ℤ × Store :=
  let first := match firstNameID with
    | some i => (i, s.firstNames)
    | none => spFirstNameGet s.rejectedNames s.firstNames k.firstName
  let last := match lastNameID with
    | some i => (i, s.lastNames)
    | none => spLastNameGet s.rejectedNames s.lastNames k.lastName
  (first.1, last.1, { s with firstNames := first.2, lastNames := last.2 })

def fullNameHits (firstNameID lastNameID : ℤ) (middleInitial : Text) : Option ℤ :=
  (selectLast (fun r => r.firstNameID == some firstNameID && r.lastNameID == some lastNameID &&
    r.middleInitial.any (textEq · middleInitial)) s.fullNames).bind (·.hits)

def results (queryID : ℤ) : Option (List UInt8) :=
  (selectLast (fun c => c.queryID = queryID) s.iwsCache).bind (·.compressedResults)

def writeCache (queryID : ℤ) (results : Option (List UInt8)) : Store :=
  if s.iwsCache.any (·.queryID = queryID) then
    { s with iwsCache := s.iwsCache.map fun c =>
        if c.queryID = queryID then { c with compressedResults := results.or c.compressedResults }
        else c }
  else { s with iwsCache := s.iwsCache ++ [{ queryID := queryID, compressedResults := results }] }

def updateRow (queryID : ℤ) (c : SaveCall) : Store :=
  { s with searchResults := s.searchResults.map fun r => if r.id = queryID then r.saved c else r }

def newRow (queryID firstNameID lastNameID : ℤ) (c : SaveCall) : SearchResultsRow :=
  { id := queryID
    searchType := c.saveKey.searchType
    firstNameID := firstNameID
    lastNameID := lastNameID
    middleInitial := c.saveKey.middleInitial
    state := c.saveKey.state
    dateCreated := some c.now : SearchResultsRow }.saved c

def saveOver (r : SearchResultsRow) (c : SaveCall) : Store :=
  let s := if c.compressedResults.isSome then s.writeCache r.id c.compressedResults else s
  if fitsSmallint c.numResults then s.updateRow r.id c else s

def saveNew (firstNameID lastNameID : ℤ) (c : SaveCall) : Store :=
  let queryID := s.nextQueryID
  let s := { s with nextQueryID := queryID + 1 }.writeCache queryID c.compressedResults
  if fitsSmallint c.numResults then
    { s with searchResults := s.searchResults ++ [newRow queryID firstNameID lastNameID c] }
  else s

/-- A number of results that the column does not take fails the statement, not those before it. -/
def saveRow (firstNameID lastNameID : ℤ) (c : SaveCall) : Except Exn SaveAnswer × Store :=
  let k := c.saveKey
  let row := Sql.top1 (·.id) (·.hasKey firstNameID lastNameID k) s.searchResults
  let queryID := (row.map (·.id)).getD s.nextQueryID
  let s' := match row with
    | some r => s.saveOver r c
    | none => s.saveNew firstNameID lastNameID c
  if fitsSmallint c.numResults then
    (.ok { queryID := queryID
           fullNameHits := s'.fullNameHits firstNameID lastNameID k.middleInitial }, s')
  else (.error .sql, s')

def spSearchResultsSave (c : SaveCall) : Except Exn SaveAnswer × Store :=
  let k := c.saveKey
  let (firstNameID, lastNameID, s) := s.resolve none none k
  if fnIsNameRejected s.rejectedNames k.firstName k.lastName then (.ok { queryID := 0 }, s)
  else s.saveRow firstNameID lastNameID c

def foundRow (firstNameID lastNameID : ℤ) (k : Key) : Option SearchResultsRow :=
  if firstNameID = 0 ∨ lastNameID = 0 then none
  else Sql.top1 (·.id) (fun r => r.hasKey firstNameID lastNameID k && r.hasResults) s.searchResults

def spSearchResultsGet (q : SearchQuery) (visitID firstNameID lastNameID : Option ℤ) :
    FoundResults × Store :=
  let k := q.readKey
  let (firstNameID, lastNameID, s) := s.resolve firstNameID lastNameID k
  let row := s.foundRow firstNameID lastNameID k
  let dateCached := row.bind (·.dateCached)
  ({ queryID := row.map (·.id)
     searchType := k.searchType
     firstNameID := firstNameID
     lastNameID := lastNameID
     middleInitial := row.map (·.middleInitial)
     state := k.state
     directoryType := row.bind (·.directoryType)
     directoryID := row.bind (·.directoryID)
     visitID := visitID
     numResults := row.bind (·.numResults)
     queryDurationMsecs := row.bind (·.queryDurationMsecs)
     dateCreated := row.bind (·.dateCreated)
     apiSource := row.bind (·.apiSource)
     resultsAreEmpty := row.bind (·.resultsAreEmpty)
     dateConsumed := row.bind (·.dateConsumed)
     listProfileIDs := row.bind (·.listProfileIDs)
     dateCached := dateCached
     fileSize := row.bind (·.fileSize)
     compressedResults := if dateCached.isSome then (row.map (·.id)).bind s.results else none
     fullNameHits := if row.isSome then
         s.fullNameHits firstNameID lastNameID (varchar 1 k.middleInitial)
       else none }, s)

def existingRow (firstNameID lastNameID : ℤ) (k : Key) : Option SearchResultsRow :=
  selectLast (·.hasKey firstNameID lastNameID k) s.searchResults

def spSearchResultsExists (q : SearchQuery) : (Bool × Option ℤ) × Store :=
  let k := q.readKey
  let (firstNameID, lastNameID, s) := s.resolve none none k
  let searchResultsID := (s.existingRow firstNameID lastNameID k).map (·.id)
  ((searchResultsID.isSome, searchResultsID), s)

end Store

end Model

namespace Key

def same (k k' : Key) : Bool :=
  k.searchType = k'.searchType && textEq k.firstName k'.firstName &&
    textEq k.lastName k'.lastName && textEq k.middleInitial k'.middleInitial &&
    textEq k.state k'.state

theorem same_iff {k k' : Key} : k.same k' = true ↔ k.searchType = k'.searchType ∧
    textEq k.firstName k'.firstName = true ∧ textEq k.lastName k'.lastName = true ∧
    textEq k.middleInitial k'.middleInitial = true ∧ textEq k.state k'.state = true := by
  simp only [same, Bool.and_eq_true, decide_eq_true_eq, and_assoc]

theorem same_symm {k k' : Key} (h : k.same k' = true) : k'.same k = true := by
  obtain ⟨h1, h2, h3, h4, h5⟩ := same_iff.1 h
  exact same_iff.2 ⟨h1.symm, textEq_symm h2, textEq_symm h3, textEq_symm h4, textEq_symm h5⟩

end Key

theorem fnAlphaOnly_some {s : Text} (h : s.length ≤ 255) :
    fnAlphaOnly (some s) = (s.filter Sql.isLetter).map foldChar := by
  have hvarchar : varchar 255 s = s := take_of_length_le h
  unfold fnAlphaOnly
  simp only [hvarchar]
  rw [filter_map]
  exact congrArg _ (filter_rtrim (by decide) s)

theorem mem_fnAlphaOnly {input : Option Text} {c : Char} (h : c ∈ fnAlphaOnly input) :
    'a' ≤ c ∧ c ≤ 'z' := by
  rcases input with _ | s
  · cases h
  · simpa using (mem_filter.1 h).2

theorem length_fnAlphaOnly_le (s : Text) : (fnAlphaOnly (some s)).length ≤ s.length := by
  have hle : (rtrim (varchar 255 s)).length ≤ s.length :=
    ((List.rdropWhile_prefix _ _).length_le).trans (length_take_le' 255 s)
  exact (length_filter_le _ _).trans (by rwa [length_map])

theorem saveKey_state (q : SearchQuery) :
    q.saveKey.state.length ≤ 2 ∧ ∀ c ∈ q.saveKey.state, Sql.isLetter c = true := by
  constructor
  · simp only [SearchQuery.saveKey, toUpper, length_map]
    rcases q.state with _ | s
    · exact Nat.zero_le _
    · exact (length_fnAlphaOnly_le _).trans (length_take_le 2 s)
  · intro c hc
    obtain ⟨d, hd, rfl⟩ := mem_map.1 hc
    have hlower := mem_fnAlphaOnly hd
    rw [isLetter_upperChar, Sql.isLetter, foldChar_of_lower hlower]
    simpa using hlower

def isInitial (middleName : Text) : Bool :=
  match rtrim middleName with
  | [] => true
  | [c] => Sql.isLetter c
  | _ => false

def isStateCode (state : Text) : Bool := (rtrim (ltrim state)).all Sql.isLetter

theorem collate_initial {a : Text} (h : ∀ c ∈ a, 'a' ≤ c ∧ c ≤ 'z') :
    collate (char 1 (toUpper a)) = a.take 1 := by
  rcases a with _ | ⟨c, a⟩
  · decide
  · have hc := h c (by simp)
    have hchar : char 1 (toUpper (c :: a)) = toUpper [c] := by
      simp [char, toUpper, List.rightpad]
    rw [hchar, collate_toUpper]
    exact collate_of_lower (by simpa using hc)

theorem textEq_initial {m : Text} (h : m.length ≤ 255) :
    textEq (char 1 (toUpper (fnAlphaOnly (some m)))) (toUpper m) = isInitial m := by
  rw [Bool.eq_iff_iff, textEq_iff, collate_toUpper, collate_initial fun c => mem_fnAlphaOnly,
    fnAlphaOnly_some h, ← filter_rtrim (by decide) m]
  unfold isInitial collate
  rcases rtrim m with _ | ⟨c, _ | ⟨d, rest⟩⟩
  · simp
  · cases hc : Sql.isLetter c <;> simp [hc]
  · have hlen : ∀ l : Text, l.take 1 ≠ (c :: d :: rest).map foldChar := by
      intro l hl
      have := congrArg List.length hl
      simp only [length_take, length_map, length_cons] at this
      omega
    simpa using hlen _

theorem textEq_stateCode {s : Text} (h : s.length ≤ 255) :
    textEq (toUpper (fnAlphaOnly (some s))) (toUpper (rtrim (ltrim s))) = isStateCode s := by
  rw [Bool.eq_iff_iff, textEq_iff, collate_toUpper, collate_toUpper,
    collate_of_lower fun c => mem_fnAlphaOnly, fnAlphaOnly_some h,
    ← filter_ltrim (by decide) s, ← filter_rtrim (by decide) (ltrim s), collate,
    rtrim_rtrim, isStateCode, all_eq_true, ← filter_eq_self]
  refine ⟨fun heq => ?_, fun heq => by rw [heq]⟩
  refine filter_sublist.eq_of_length ?_
  have := congrArg List.length heq
  rwa [length_map, length_map] at this

theorem same_readKey (q : SearchQuery) : q.saveKey.same q.readKey =
    (isInitial ((q.middleName.map (varchar 30)).getD []) &&
      isStateCode ((q.state.map (varchar 2)).getD [])) := by
  have hm : textEq q.saveKey.middleInitial q.readKey.middleInitial =
      isInitial ((q.middleName.map (varchar 30)).getD []) := by
    simp only [SearchQuery.saveKey, SearchQuery.readKey]
    rcases q.middleName with _ | m
    · decide
    · exact textEq_initial ((length_take_le 30 m).trans (by decide))
  have hs : textEq q.saveKey.state q.readKey.state =
      isStateCode ((q.state.map (varchar 2)).getD []) := by
    simp only [SearchQuery.saveKey, SearchQuery.readKey]
    rcases q.state with _ | s
    · decide
    · exact textEq_stateCode ((length_take_le 2 s).trans (by decide))
  simp only [Key.same, hm, hs]
  simp [SearchQuery.saveKey, SearchQuery.readKey]

namespace Store

def rowKey (r : SearchResultsRow) : Int16 × ℤ × ℤ × Text × Text :=
  (r.searchType, r.firstNameID, r.lastNameID, collate r.middleInitial, collate r.state)

/-- What the procedures keep: they insert a search only once, under a number of the sequence,
with the numbers of names in the tables and a state of letters. -/
structure Wf (s : Store) : Prop where
  ids : Sql.Unique SearchResultsRow.id s.searchResults
  keys : Sql.Unique rowKey s.searchResults
  ahead : ∀ r ∈ s.searchResults, 0 < r.id ∧ r.id < s.nextQueryID
  next_pos : 0 < s.nextQueryID
  firstNamed : ∀ r ∈ s.searchResults, s.firstNames.Has r.firstNameID
  lastNamed : ∀ r ∈ s.searchResults, s.lastNames.Has r.lastNameID
  states : ∀ r ∈ s.searchResults, r.state.length ≤ 2 ∧ ∀ c ∈ r.state, Sql.isLetter c = true

def keyed (s : Store) (k : Key) (r : SearchResultsRow) : Bool :=
  s.firstNames.find k.firstName == some r.firstNameID &&
    s.lastNames.find k.lastName == some r.lastNameID &&
    textEq r.middleInitial k.middleInitial && textEq r.state k.state &&
    r.searchType = k.searchType

def row (s : Store) (k : Key) : Option SearchResultsRow := s.searchResults.find? (s.keyed k)

variable {s s' : Store} {k k' : Key} {r r' : SearchResultsRow} {c : SaveCall}

theorem keyed_iff : s.keyed k r = true ↔ s.firstNames.find k.firstName = some r.firstNameID ∧
    s.lastNames.find k.lastName = some r.lastNameID ∧
    textEq r.middleInitial k.middleInitial = true ∧ textEq r.state k.state = true ∧
    r.searchType = k.searchType := by
  simp only [keyed, Bool.and_eq_true, decide_eq_true_eq, beq_iff_eq, and_assoc]

theorem same_of_keyed (h : s.keyed k r = true) (h' : s.keyed k' r = true) : k.same k' = true := by
  obtain ⟨h1, h2, h3, h4, h5⟩ := keyed_iff.1 h
  obtain ⟨h1', h2', h3', h4', h5'⟩ := keyed_iff.1 h'
  exact Key.same_iff.2 ⟨h5.symm.trans h5', NameTable.textEq_of_find h1 h1',
    NameTable.textEq_of_find h2 h2', textEq_trans (textEq_symm h3) h3',
    textEq_trans (textEq_symm h4) h4'⟩

theorem keyed_of_same (hs : k.same k' = true) (h : s.keyed k r = true) : s.keyed k' r = true := by
  obtain ⟨h1, h2, h3, h4, h5⟩ := keyed_iff.1 h
  obtain ⟨hs1, hs2, hs3, hs4, hs5⟩ := Key.same_iff.1 hs
  exact keyed_iff.2 ⟨NameTable.find_congr hs2 ▸ h1, NameTable.find_congr hs3 ▸ h2,
    textEq_trans h3 hs4, textEq_trans h4 hs5, h5.trans hs1⟩

theorem row_congr (hs : k.same k' = true) : s.row k = s.row k' := by
  unfold row
  congr 1
  funext r
  exact Bool.eq_iff_iff.2 ⟨keyed_of_same hs, keyed_of_same (Key.same_symm hs)⟩

theorem mem_of_row (h : s.row k = some r) : r ∈ s.searchResults := mem_of_find?_eq_some h

theorem keyed_of_row (h : s.row k = some r) : s.keyed k r = true := find?_some h

theorem rowKey_eq_of_keyed (h : s.keyed k r = true) (h' : s.keyed k r' = true) :
    rowKey r = rowKey r' := by
  obtain ⟨h1, h2, h3, h4, h5⟩ := keyed_iff.1 h
  obtain ⟨h1', h2', h3', h4', h5'⟩ := keyed_iff.1 h'
  have hfirst := h1.symm.trans h1'
  have hlast := h2.symm.trans h2'
  simp only [Option.some.injEq] at hfirst hlast
  simp only [rowKey, hfirst, hlast, h5, h5', textEq_iff.1 h3, textEq_iff.1 h3',
    textEq_iff.1 h4, textEq_iff.1 h4']

theorem Wf.id_ne (hw : s.Wf) (h : s.row k = some r) (h' : s.row k' = some r')
    (hs : k.same k' = false) : r.id ≠ r'.id := by
  intro heq
  obtain rfl := hw.ids.eq (mem_of_row h) (mem_of_row h') heq
  rw [same_of_keyed (keyed_of_row h) (keyed_of_row h')] at hs
  cases hs

structure Grown (s s' : Store) : Prop where
  firstNames : s.firstNames.Grown s'.firstNames
  lastNames : s.lastNames.Grown s'.lastNames
  tables : s' = { s with firstNames := s'.firstNames, lastNames := s'.lastNames }

theorem Grown.refl (s : Store) : s.Grown s := ⟨.refl _, .refl _, rfl⟩

section

variable (h : s.Grown s')
include h

theorem Grown.searchResults : s'.searchResults = s.searchResults := by
  rw [h.tables]

theorem Grown.results (queryID : ℤ) : s'.results queryID = s.results queryID := by
  rw [h.tables]
  rfl

theorem Grown.wf (hw : s.Wf) : s'.Wf where
  ids := h.searchResults ▸ hw.ids
  keys := h.searchResults ▸ hw.keys
  ahead r hr := by
    rw [h.tables] at hr ⊢
    exact hw.ahead r hr
  next_pos := by
    rw [h.tables]
    exact hw.next_pos
  firstNamed r hr := (h.firstNames _ (hw.firstNamed r (h.searchResults ▸ hr))).1
  lastNamed r hr := (h.lastNames _ (hw.lastNamed r (h.searchResults ▸ hr))).1
  states r hr := hw.states r (h.searchResults ▸ hr)

theorem Grown.keyed (hw : s.Wf) (hr : r ∈ s.searchResults) :
    s'.keyed k r = s.keyed k r := by
  have hfirst := (h.firstNames _ (hw.firstNamed r hr)).2 k.firstName
  have hlast := (h.lastNames _ (hw.lastNamed r hr)).2 k.lastName
  rw [Bool.eq_iff_iff, keyed_iff, keyed_iff, hfirst, hlast]

theorem Grown.row (hw : s.Wf) (k : Key) : s'.row k = s.row k := by
  unfold Store.row
  rw [h.searchResults]
  exact find?_congr fun r hr => h.keyed hw hr

end

theorem grown_resolve (s : Store) (f l : Option ℤ) (k : Key) : s.Grown (s.resolve f l k).2.2 where
  firstNames := by
    rcases f with _ | i
    · exact grown_spFirstNameGet _ _ _
    · exact .refl _
  lastNames := by
    rcases l with _ | i
    · exact grown_spLastNameGet _ _ _
    · exact .refl _
  tables := rfl

structure Numbered (s : Store) (f l : Option ℤ) (k : Key) : Prop where
  firstName : ∀ i ∈ f, s.firstNames.find k.firstName = some i
  lastName : ∀ i ∈ l, s.lastNames.find k.lastName = some i

theorem Numbered.none (s : Store) (k : Key) : s.Numbered none none k where
  firstName := by simp
  lastName := by simp

def Accepts (s : Store) (k : Key) : Prop :=
  fnIsNameRejected s.rejectedNames k.firstName k.lastName = false

instance (s : Store) (k : Key) : Decidable (s.Accepts k) := inferInstanceAs (Decidable (_ = _))

theorem find_resolve {f l : Option ℤ} (hn : s.Numbered f l k) (ha : s.Accepts k) :
    (s.resolve f l k).2.2.firstNames.find k.firstName = some (s.resolve f l k).1 ∧
      (s.resolve f l k).2.2.lastNames.find k.lastName = some (s.resolve f l k).2.1 := by
  unfold Accepts at ha
  rw [fnIsNameRejected_eq, Bool.or_eq_false_iff] at ha
  constructor
  · rcases f with _ | i
    · simp only [resolve, spFirstNameGet, ha.1, Bool.false_eq_true, if_false]
      exact NameTable.find_get_self _ _
    · exact hn.firstName i rfl
  · rcases l with _ | i
    · simp only [resolve, spLastNameGet, ha.2, Bool.false_eq_true, if_false]
      exact NameTable.find_get_self _ _
    · exact hn.lastName i rfl

theorem hasKey_eq {f l : ℤ} (hf : s.firstNames.find k.firstName = some f)
    (hl : s.lastNames.find k.lastName = some l) (r : SearchResultsRow) :
    r.hasKey f l k = s.keyed k r := by
  rw [Bool.eq_iff_iff, keyed_iff, hf, hl]
  simp only [SearchResultsRow.hasKey, Bool.and_eq_true, decide_eq_true_eq, and_assoc,
    Option.some.injEq]
  rw [eq_comm (a := f), eq_comm (a := l)]

theorem Wf.filter_keyed (hw : s.Wf) (k : Key) :
    s.searchResults.filter (s.keyed k) = (s.row k).toList :=
  hw.keys.filter_eq_find? fun _ _ _ _ ha hb => rowKey_eq_of_keyed ha hb

theorem Wf.top1_hasKey {f l : ℤ} (hw : s.Wf) (hf : s.firstNames.find k.firstName = some f)
    (hl : s.lastNames.find k.lastName = some l) :
    Sql.top1 (·.id) (·.hasKey f l k) s.searchResults = s.row k := by
  simp only [Sql.top1, hasKey_eq hf hl]
  rw [hw.filter_keyed]
  cases s.row k <;> rfl

theorem Wf.top1_hasKey_and {f l : ℤ} (hw : s.Wf) (hf : s.firstNames.find k.firstName = some f)
    (hl : s.lastNames.find k.lastName = some l) (p : SearchResultsRow → Bool) :
    Sql.top1 (·.id) (fun r => r.hasKey f l k && p r) s.searchResults = (s.row k).filter p := by
  have hfilter : s.searchResults.filter (fun r => s.keyed k r && p r) =
      (s.row k).toList.filter p := by
    rw [← hw.filter_keyed, filter_filter]
    simp only [Bool.and_comm]
  simp only [Sql.top1, hasKey_eq hf hl, hfilter]
  rcases s.row k with _ | r
  · rfl
  · cases h : p r <;> simp [h, Option.filter]

end Store

end AciX.Profile
