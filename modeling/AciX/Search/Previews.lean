import AciX.Search.Save

/-!
# Previews

`ProfileHelper.GetPreviews` answers a search from the stored results while they are recent enough,
and asks the service IWS otherwise, up to five times more if it refuses, and stores what it answers.
A save changes what a lookup of its own search tells and nothing that another one does
(`touches_save`, `save_stored`).
-/

namespace AciX.Profile

section Model

structure PersonQuery where
  searchType : Int16
  firstName : Text
  middleName : Option Text := none
  lastName : Text
  state : Option Text := none
  visitID : Option ℤ := none

def PersonQuery.search (q : PersonQuery) : SearchQuery where
  searchType := some q.searchType
  firstName := q.firstName
  middleName := q.middleName
  lastName := q.lastName
  state := q.state

/-- The libraries a preview passes through: `PersonQuery.Normalize`, `JsonConvert`,
`CompressionHelper` and the class `ProfileResponse`, whose values are those of `R`. -/
structure Formats (R : Type) where
  normalize : PersonQuery → PersonQuery
  serialize : Option R → Text
  deserialize : Text → Except Exn (Option R)
  compress : Text → List UInt8
  uncompress : List UInt8 → Except Exn Text
  profileCount : R → ℕ

/-- The end of one request to IWS: a response, which may be null, a refusal, a time-out or another
failure. -/
inductive IwsAnswer (R : Type) where
  | response (r : Option R)
  | forbidden
  | cancelled
  | failed

structure PreviewCall (R : Type) where
  query : PersonQuery
  requeryAfterMonths : ℤ := 2
  now : DateTime
  copy : Option (Except Exn FoundResults) := none
  admitted : Bool := true
  queryDurationMsecs : ℤ := 0
  iws : ℕ → IwsAnswer R

structure Preview (R : Type) where
  response : R
  fullNameHits : ℤ
  queryID : ℤ

structure PreviewAnswer (R : Type) where
  result : Except Exn (Option (Preview R))
  requests : ℕ := 0

structure PreviewWorld where
  store : Store := {}
  firstNameIDs : Text → Option ℤ := fun _ => none
  lastNameIDs : Text → Option ℤ := fun _ => none

def quotedValue : Text → Option (Text × Text)
  | '"' :: s =>
    match s.dropWhile (· ≠ '"') with
    | '"' :: rest =>
      match rest.dropWhile isSpace with
      | '\x7d' :: rest => some ('"' :: s.takeWhile (· ≠ '"') ++ ['"'], rest)
      | _ => none
    | _ => none
  | _ => none

def plainValue (s : Text) : Option (Text × Text) :=
  match s.dropWhile (· ≠ '\x7d') with
  | '\x7d' :: rest => some (s.takeWhile (· ≠ '\x7d'), rest)
  | _ => none

/-- An object whose only field is `_t`: the field's value, and what follows the object. -/
def textObject : Text → Option (Text × Text)
  | '\x7b' :: s =>
    match s.dropWhile isSpace with
    | '"' :: '_' :: 't' :: '"' :: s =>
      match s.dropWhile isSpace with
      | ':' :: s => (quotedValue (s.dropWhile isSpace)).or (plainValue (s.dropWhile isSpace))
      | _ => none
    | _ => none
  | _ => none

def convertLoop : ℕ → Text → Text
  | 0, s => s
  | _, [] => []
  | n + 1, c :: s =>
    match textObject (c :: s) with
    | some (value, rest) => value ++ convertLoop n rest
    | none => c :: convertLoop n s

def convertTextJson (s : Text) : Text := convertLoop s.length s

example : convertTextJson
    "[\x7b \"_t\" : \"Al\" \x7d,\x7b\"_t\":12\x7d,\x7b\"a\":\x7b\"_t\":\"x\x7d\"\x7d\x7d]".toList =
    "[\"Al\",12,\x7b\"a\":\"x\x7d\"\x7d]".toList := by decide

variable {R : Type} (F : Formats R)

/-- `ProfileClient.QueryPreviews`, with so many retries left: the response and the requests sent. -/
def queryPreviews (iws : ℕ → IwsAnswer R) : ℕ → ℕ → Except Exn (Option R) × ℕ
  | retries, n =>
    match iws n, retries with
    | .response r, _ => (.ok r, 1)
    | .cancelled, _ => (.error .web, 1)
    | .failed, _ => (.ok none, 1)
    | .forbidden, 0 => (.ok none, 1)
    | .forbidden, retries + 1 =>
      let (r, requests) := queryPreviews iws retries (n + 1)
      (r, requests + 1)

def saveJsonResults (s : Store) (q : PersonQuery) (now : DateTime) (duration : Option ℤ)
    (resultsAreEmpty : Bool) (response : Option R) (json : Text) : Except Exn SaveAnswer × Store :=
  if resultsAreEmpty then
    s.spSearchResultsSave { q.search with
      visitID := q.visitID
      numResults := some 0
      queryDurationMsecs := duration
      apiSource := some "iws3.0+".toList
      resultsAreEmpty := some true
      compressedResults := none
      fileSize := some 0
      now := now }
  else
    match response with
    | none => (.ok { queryID := 0 }, s)
    | some r =>
      if 0 < F.profileCount r then
        s.spSearchResultsSave { q.search with
          visitID := q.visitID
          numResults := some (F.profileCount r)
          queryDurationMsecs := duration
          apiSource := some "iws3.0+".toList
          resultsAreEmpty := some false
          compressedResults := some (F.compress json)
          fileSize := some (F.compress json).length
          now := now }
      else (.ok { queryID := 0 }, s)

namespace PreviewCall

variable (c : PreviewCall R)

/-- The copy is read from a quarter past to a minute to the hour, if it can be opened. -/
def reads : Option (Except Exn FoundResults) :=
  if 15 ≤ c.now.minute ∧ c.now.minute < 59 then c.copy else none

def isRecent (dateCached : Option DateTime) : Bool :=
  dateCached.any fun d => c.now.addMonths (-c.requeryAfterMonths) < d

end PreviewCall

/-- `FetchSearchResults`. The procedure always selects a row, so the database itself is not asked
when the copy has nothing. -/
def fetchSearchResults (w : PreviewWorld) (c : PreviewCall R) (q : PersonQuery) :
    Except Exn FoundResults × Store :=
  match c.reads with
  | some answer => (answer, w.store)
  | none =>
    let (found, store) := w.store.spSearchResultsGet q.search q.visitID (w.firstNameIDs q.firstName)
      (w.lastNameIDs q.lastName)
    (.ok found, store)

/-- The stored response and, if it has been stored in another form, the text to store instead. -/
def readStored (compressedResults : Option (List UInt8)) : Except Exn (Option (R × Option Text)) :=
  match compressedResults with
  | none => .ok none
  | some bytes => do
    let json ← F.uncompress bytes
    let response ← F.deserialize (convertTextJson json)
    let converted := F.serialize response
    return response.map fun r => (r,
      if converted.length ≠ json.length then some converted else none)

namespace PreviewWorld

variable (w : PreviewWorld) (c : PreviewCall R) (q : PersonQuery)

def learn (found : FoundResults) : PreviewWorld :=
  { w with
    firstNameIDs := if w.firstNameIDs q.firstName = none then
        Function.update w.firstNameIDs q.firstName (some found.firstNameID) else w.firstNameIDs
    lastNameIDs := if w.lastNameIDs q.lastName = none then
        Function.update w.lastNameIDs q.lastName (some found.lastNameID) else w.lastNameIDs }

def ask : PreviewAnswer R × PreviewWorld :=
  if c.admitted then
    let (response, requests) := queryPreviews c.iws 5 0
    match response with
    | .error e => ({ result := .error e, requests := requests }, w)
    | .ok response =>
      let empty := response.all (F.profileCount · = 0)
      let (saved, store) := saveJsonResults F w.store q c.now (some c.queryDurationMsecs) empty
        response (F.serialize response)
      let w := { w with store := store }
      match saved with
      | .error e => ({ result := .error e, requests := requests }, w)
      | .ok a =>
        let result := if a.queryID = 0 then none
          else response.map fun r => ⟨r, a.fullNameHits.getD 0, a.queryID⟩
        ({ result := .ok result, requests := requests }, w)
  else ({ result := .error (.iws "Query rate exceeded; server too busy".toList) }, w)

def answerFrom (found : FoundResults) : PreviewAnswer R × PreviewWorld :=
  let answer (r : R) : PreviewAnswer R :=
    { result := .ok (some ⟨r, found.fullNameHits.getD 0, found.queryID.getD 0⟩) }
  match readStored F found.compressedResults with
  | .error e => ({ result := .error e }, w)
  | .ok none => w.ask F c q
  | .ok (some (r, none)) => (answer r, w)
  | .ok (some (r, some json)) =>
    let (saved, store) := saveJsonResults F w.store q c.now none false (some r) json
    let w := { w with store := store }
    match saved with
    | .error _ => w.ask F c q
    | .ok a => if a.queryID = 0 then w.ask F c q else (answer r, w)

def proceed (found : FoundResults) : PreviewAnswer R × PreviewWorld :=
  if c.isRecent found.dateCached then (w.learn q found).answerFrom F c q found else w.ask F c q

def getPreviews : PreviewAnswer R × PreviewWorld :=
  let q := F.normalize c.query
  let (fetched, store) := fetchSearchResults w c q
  let w' := { w with store := store }
  match fetched with
  | .error e => ({ result := .error e }, w')
  | .ok found => w'.proceed F c q found

end PreviewWorld

end Model

section Store

variable {s s' s'' : Store} {q : SearchQuery} {c : SaveCall} {k : Key}

def Store.stored (s : Store) (q : SearchQuery) : Option DateTime × Option (List UInt8) :=
  ((s.spSearchResultsGet q none none none).1.dateCached,
    (s.spSearchResultsGet q none none none).1.compressedResults)

theorem Store.Wf.get_stored (hw : s.Wf) {f l : Option ℤ} (hn : s.Numbered f l q.readKey)
    (ha : s.Accepts q.readKey) (visitID : Option ℤ) :
    ((s.spSearchResultsGet q visitID f l).1.dateCached,
      (s.spSearchResultsGet q visitID f l).1.compressedResults) = s.stored q := by
  obtain ⟨-, hdate, hresults⟩ := Store.spSearchResultsGet_found hw hn ha visitID
  obtain ⟨-, hdate', hresults'⟩ := Store.spSearchResultsGet_found hw (.none s _) ha none
  unfold stored
  rw [hdate, hresults, hdate', hresults']

structure Touches (s s' : Store) (k : Key) : Prop where
  wf : s'.Wf
  rejectedNames : s'.rejectedNames = s.rejectedNames
  firstNames : s.firstNames.Grown s'.firstNames
  lastNames : s.lastNames.Grown s'.lastNames
  row : ∀ k', k'.same k = false → s'.row k' = s.row k'
  results : ∀ k' r, k'.same k = false → s.row k' = some r → s'.results r.id = s.results r.id

theorem touches_of_grown (hw : s.Wf) (h : s.Grown s') (k : Key) : Touches s s' k where
  wf := h.wf hw
  rejectedNames := by rw [h.tables]
  firstNames := h.firstNames
  lastNames := h.lastNames
  row k' _ := h.row hw k'
  results _ r _ _ := h.results r.id

theorem Touches.refl (hw : s.Wf) (k : Key) : Touches s s k :=
  touches_of_grown hw (.refl s) k

theorem Touches.trans (h : Touches s s' k) (h' : Touches s' s'' k) : Touches s s'' k where
  wf := h'.wf
  rejectedNames := h'.rejectedNames.trans h.rejectedNames
  firstNames := h.firstNames.trans h'.firstNames
  lastNames := h.lastNames.trans h'.lastNames
  row k' hk := (h'.row k' hk).trans (h.row k' hk)
  results k' r hk hr := (h'.results k' r hk ((h.row k' hk).trans hr)).trans (h.results k' r hk hr)

theorem Touches.accepts (h : Touches s s' k) {k' : Key} (ha : s.Accepts k') : s'.Accepts k' := by
  unfold Store.Accepts at *
  rw [h.rejectedNames]
  exact ha

theorem stored_congr (hw : s.Wf) (hw' : s'.Wf) (ha : s.Accepts q.readKey)
    (ha' : s'.Accepts q.readKey) (hrow : s'.row q.readKey = s.row q.readKey)
    (hresults : ∀ r, s.row q.readKey = some r → s'.results r.id = s.results r.id) :
    s'.stored q = s.stored q := by
  obtain ⟨-, hdate, hres⟩ := Store.spSearchResultsGet_found hw (.none s _) ha none
  obtain ⟨-, hdate', hres'⟩ := Store.spSearchResultsGet_found hw' (.none s' _) ha' none
  unfold Store.stored
  rw [hdate, hres, hdate', hres', hrow]
  rcases hr : s.row q.readKey with _ | r
  · rfl
  · cases hhas : r.hasResults
    · simp [Option.filter, hhas]
    · simp [Option.filter, hhas, hresults r hr]

theorem Touches.stored (hw : s.Wf) (h : Touches s s' k) (ha : s.Accepts q.readKey)
    (hk : q.readKey.same k = false) : s'.stored q = s.stored q :=
  stored_congr hw h.wf ha (h.accepts ha) (h.row _ hk) fun r => h.results _ r hk

theorem Store.Grown.stored (hw : s.Wf) (h : s.Grown s') (ha : s.Accepts q.readKey) :
    s'.stored q = s.stored q :=
  stored_congr hw (h.wf hw) ha ((touches_of_grown hw h q.readKey).accepts ha) (h.row hw _)
    fun r _ => h.results r.id

theorem touches_save (hw : s.Wf) (hfit : fitsSmallint c.numResults = true) :
    Touches s (s.spSearchResultsSave c).2 c.saveKey := by
  have hgrown := s.grown_resolve none none c.saveKey
  by_cases ha : s.Accepts c.saveKey
  · obtain ⟨r, hits, -, hsaves⟩ := Store.save_saves hw ha hfit
    have hrest := Store.sameRest_saveRow (s.resolve none none c.saveKey).2.2
      (s.resolve none none c.saveKey).1 (s.resolve none none c.saveKey).2.1 c
    rw [← Store.spSearchResultsSave_of_accepts ha] at hrest
    exact ⟨hw.save c, s.rejectedNames_save c, hrest.firstNames ▸ hgrown.firstNames,
      hrest.lastNames ▸ hgrown.lastNames, hsaves.otherRow, hsaves.otherResults⟩
  · rw [Store.spSearchResultsSave_of_rejected ha]
    exact touches_of_grown hw hgrown _

section Own

variable (hw : s.Wf) (ha : s.Accepts c.saveKey) (hsame : c.saveKey.same c.readKey = true)
  (hfit : fitsSmallint c.numResults = true)

include hw ha hsame hfit

theorem save_stored : ∃ a, (s.spSearchResultsSave c).1 = .ok a ∧ a.queryID ≠ 0 ∧
    (c.compressedResults.isSome → c.resultsAreEmpty = some false →
      c.apiSource = some "iws3.0+".toList →
      (s.spSearchResultsSave c).2.stored c.toSearchQuery = (some c.now, c.compressedResults)) ∧
    (c.resultsAreEmpty = some true →
      (s.spSearchResultsSave c).2.stored c.toSearchQuery = (none, none)) := by
  have htouch := touches_save hw hfit
  obtain ⟨r, hits, hanswer, hsaves⟩ := Store.save_saves hw ha hfit
  have hrow := hsaves.row
  have hpos : 0 < r.id := (htouch.wf.ahead _ (Store.mem_of_row hrow)).1
  rw [Store.row_congr hsame] at hrow
  obtain ⟨-, hdate, hres⟩ := Store.spSearchResultsGet_found htouch.wf (.none _ _)
    (htouch.accepts ha : (s.spSearchResultsSave c).2.Accepts c.readKey) none
  rw [hrow] at hdate hres
  refine ⟨_, hanswer, hpos.ne', fun hb he hsrc => ?_, fun he => ?_⟩
  · rw [Option.filter_some, if_pos (Store.saved_hasResults hb he hsrc r), Option.bind_some]
      at hdate hres
    unfold Store.stored
    rw [hdate, hres]
    exact congrArg _ (hsaves.results hb)
  · have hhas : (r.saved c).hasResults = false := by
      simp [SearchResultsRow.hasResults, SearchResultsRow.saved, he]
    rw [Option.filter_some, if_neg (by simp [hhas]), Option.bind_none] at hdate hres
    unfold Store.stored
    rw [hdate, hres]

end Own

end Store

end AciX.Profile
