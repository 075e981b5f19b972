import AciX.Cart.Add
import AciX.Search.PreviewPage
import AciX.Search.Requery

/-!
# Missing responses

`GetPreviews` returns null when nothing stored can be used and IWS gives no response, or the
database rejects the name (`getPreviews_none_iff`). Its two callers test for null too late, so each
of them handles every answer exactly if the answer is there (`handles_missing_iff`).
-/

namespace AciX.Profile

section Missing

variable {R : Type} (F : Formats R)

def Resaves (s : Store) (q : PersonQuery) (r : R) : Prop :=
  0 < F.profileCount r ∧ fitsSmallint (some (F.profileCount r : ℤ)) = true ∧
    s.Accepts q.search.saveKey

def Unusable (s : Store) (c : PreviewCall R) (q : PersonQuery) (found : FoundResults) : Prop :=
  c.isRecent found.dateCached = false ∨ readStored F found.compressedResults = .ok none ∨
    ∃ r json, readStored F found.compressedResults = .ok (some (r, some json)) ∧
      ¬ Resaves F s q r

/-- IWS is asked, and gives no response or one that is not stored because of the name. -/
def Unanswered (s : Store) (c : PreviewCall R) (q : PersonQuery) : Prop :=
  c.admitted = true ∧ ∃ response, (queryPreviews c.iws 5 0).1 = .ok response ∧
    (response = none ∨ ¬ s.Accepts q.search.saveKey)

/-- What is stored cannot be used, and IWS gives no response that can be stored. -/
def Missing (w : PreviewWorld) (c : PreviewCall R) : Prop :=
  (∃ found, (fetchSearchResults w c (F.normalize c.query)).1 = .ok found ∧
    Unusable F w.store c (F.normalize c.query) found) ∧
  Unanswered w.store c (F.normalize c.query)

variable {F} {s : Store} {w : PreviewWorld} {c : PreviewCall R} {q : PersonQuery}
  {found : FoundResults}

theorem save_id_ne_zero (hw : s.Wf) {k : SaveCall} (ha : s.Accepts k.saveKey)
    (hfit : fitsSmallint k.numResults = true) :
    ∃ a, (s.spSearchResultsSave k).1 = .ok a ∧ a.queryID ≠ 0 := by
  obtain ⟨r, hits, hanswer, hsaves⟩ := Store.save_saves hw ha hfit
  have hpos : 0 < r.id := ((hw.save k).ahead _ (Store.mem_of_row hsaves.row)).1
  exact ⟨_, hanswer, hpos.ne'⟩

theorem save_ok_ne_zero_iff (hw : s.Wf) (k : SaveCall) :
    (∃ a, (s.spSearchResultsSave k).1 = .ok a ∧ a.queryID ≠ 0) ↔
      fitsSmallint k.numResults = true ∧ s.Accepts k.saveKey := by
  refine ⟨fun ⟨a, hok, hid⟩ => ?_, fun ⟨hfit, ha⟩ => save_id_ne_zero hw ha hfit⟩
  have ha : s.Accepts k.saveKey := by
    by_contra ha
    rw [Store.spSearchResultsSave_of_rejected ha] at hok
    cases hok
    exact hid rfl
  refine ⟨?_, ha⟩
  by_contra hfit
  rw [Store.save_error ha (Bool.eq_false_iff.2 hfit)] at hok
  cases hok

theorem resaves_iff (hw : s.Wf) (now : DateTime) (duration : Option ℤ) (r : R) (json : Text) :
    (∃ a, (saveJsonResults F s q now duration false (some r) json).1 = .ok a ∧ a.queryID ≠ 0) ↔
      Resaves F s q r := by
  unfold saveJsonResults Resaves
  simp only [Bool.false_eq_true, if_false]
  split_ifs with hr
  · rw [and_iff_right hr]
    exact save_ok_ne_zero_iff hw _
  · simp [hr]

theorem saveJsonResults_store (s : Store) (q : PersonQuery) (now : DateTime) (duration : Option ℤ)
    (empty : Bool) (response : Option R) (json : Text) :
    (saveJsonResults F s q now duration empty response json).2 = s ∨
      ∃ k, (saveJsonResults F s q now duration empty response json).2 =
        (s.spSearchResultsSave k).2 := by
  unfold saveJsonResults
  split_ifs
  · exact .inr ⟨_, rfl⟩
  · rcases response with _ | r
    · exact .inl rfl
    · simp only
      split_ifs
      · exact .inr ⟨_, rfl⟩
      · exact .inl rfl

theorem saveJsonResults_wf (hw : s.Wf) (q : PersonQuery) (now : DateTime) (duration : Option ℤ)
    (empty : Bool) (response : Option R) (json : Text) :
    (saveJsonResults F s q now duration empty response json).2.Wf ∧
      (saveJsonResults F s q now duration empty response json).2.rejectedNames =
        s.rejectedNames := by
  rcases saveJsonResults_store (F := F) s q now duration empty response json with h | ⟨k, h⟩
  · rw [h]
    exact ⟨hw, rfl⟩
  · rw [h]
    exact ⟨hw.save k, s.rejectedNames_save k⟩

theorem saveJsonResults_answer (s : Store) (q : PersonQuery) (now : DateTime)
    (duration : Option ℤ) (response : Option R) (json : Text) : ∃ k : SaveCall,
      k.toSearchQuery = q.search ∧ (response = none → fitsSmallint k.numResults = true) ∧
      saveJsonResults F s q now duration (response.all (F.profileCount · = 0)) response json =
        s.spSearchResultsSave k := by
  unfold saveJsonResults
  rcases response with _ | r
  · exact ⟨_, rfl, fun _ => rfl, rfl⟩
  · rcases Nat.eq_zero_or_pos (F.profileCount r) with hr | hr
    · simp only [Option.all_some, hr, decide_true, if_true]
      exact ⟨_, rfl, nofun, rfl⟩
    · simp only [Option.all_some, hr.ne', decide_false, Bool.false_eq_true, if_false, hr, if_true]
      exact ⟨_, rfl, nofun, rfl⟩

theorem ask_none_iff (hw : w.store.Wf) :
    (w.ask F c q).1.result = .ok none ↔ Unanswered w.store c q := by
  unfold PreviewWorld.ask Unanswered
  cases c.admitted
  · simp
  rcases hanswer : queryPreviews c.iws 5 0 with ⟨e | response, n⟩
  · simp
  obtain ⟨k, hk, hfit, hsave⟩ := saveJsonResults_answer (F := F) w.store q c.now
    (some c.queryDurationMsecs) response (F.serialize response)
  simp only [if_true, hsave, true_and, Except.ok.injEq, exists_eq_left', ← hk]
  by_cases ha : w.store.Accepts k.saveKey
  · simp only [ha, not_true, or_false]
    cases hnum : fitsSmallint k.numResults
    · rw [Store.save_error ha hnum]
      refine ⟨fun h => ?_, fun hnone => ?_⟩
      · cases h
      · simp [hfit hnone] at hnum
    · obtain ⟨a, hok, hid⟩ := save_id_ne_zero hw ha hnum
      rw [hok]
      simp [hid]
  · rw [Store.spSearchResultsSave_of_rejected ha]
    simp [ha]

theorem unanswered_congr {s s' : Store} (h : s'.rejectedNames = s.rejectedNames) :
    Unanswered s' c q ↔ Unanswered s c q := by
  simp only [Unanswered, Store.Accepts, h]

theorem unusable_stored_iff {r : R} {json : Text} (hrecent : c.isRecent found.dateCached = true)
    (hstored : readStored F found.compressedResults = .ok (some (r, some json))) :
    Unusable F s c q found ↔ ¬ Resaves F s q r := by
  simp [Unusable, hrecent, hstored]

theorem answerFrom_none_iff (hw : w.store.Wf) (hrecent : c.isRecent found.dateCached = true) :
    (w.answerFrom F c q found).1.result = .ok none ↔
      Unusable F w.store c q found ∧ Unanswered w.store c q := by
  unfold PreviewWorld.answerFrom
  rcases hstored : readStored F found.compressedResults with e | _ | ⟨r, _ | json⟩
  · simp [Unusable, hrecent, hstored]
  · simp [Unusable, hrecent, hstored, ask_none_iff hw]
  · simp [Unusable, hrecent, hstored]
  · rw [unusable_stored_iff hrecent hstored, ← resaves_iff hw c.now none r json]
    obtain ⟨hwf, hnames⟩ := saveJsonResults_wf (F := F) hw q c.now none false (some r) json
    have hask := (ask_none_iff (F := F) (c := c) (q := q) (w := { w with
      store := (saveJsonResults F w.store q c.now none false (some r) json).2 }) hwf).trans
      (unanswered_congr hnames)
    simp only
    rcases (saveJsonResults F w.store q c.now none false (some r) json).1 with e | a
    · simp [hask]
    · by_cases hid : a.queryID = 0
      · simp [hid, hask]
      · simp [hid]

theorem proceed_none_iff (hw : w.store.Wf) : (w.proceed F c q found).1.result = .ok none ↔
      Unusable F w.store c q found ∧ Unanswered w.store c q := by
  unfold PreviewWorld.proceed
  split_ifs with hrecent
  · exact answerFrom_none_iff (w := w.learn q found) hw hrecent
  · rw [ask_none_iff hw, and_iff_right (.inl (Bool.eq_false_iff.2 hrecent))]

theorem getPreviews_none_iff (hw : w.store.Wf) :
    (w.getPreviews F c).1.result = .ok none ↔ Missing F w c := by
  have hgrown := grown_fetchSearchResults w c (F.normalize c.query)
  have hnames : (fetchSearchResults w c (F.normalize c.query)).2.rejectedNames =
      w.store.rejectedNames := by rw [hgrown.tables]
  unfold PreviewWorld.getPreviews Missing
  simp only
  rcases (fetchSearchResults w c (F.normalize c.query)).1 with e | found
  · simp
  · rw [proceed_none_iff (hgrown.wf hw), unanswered_congr hnames]
    simp [Unusable, Resaves, Store.Accepts, hnames]

end Missing

section Model

variable {δ : Type} (F : Formats (ProfileResponse δ)) (pw : PreviewWorld)
  (c : PreviewCall (ProfileResponse δ)) (w : World) (v : DBVisit)

/-- The call of `search/preview`. The other fields of the query are those of a new one. -/
def PreviewCall.forSearch (firstname lastname : Text) (state : Option Text) :
    PreviewCall (ProfileResponse δ) :=
  { c with
    query := { c.query with
      firstName := firstname
      middleName := some []
      lastName := lastname
      state := state }
    requeryAfterMonths := 12 }

def PreviewCall.forCart (firstname lastname : Text) (state : Option Text) :
    PreviewCall (ProfileResponse δ) :=
  { c with
    query := { c.query with firstName := firstname, lastName := lastname, state := state }
    requeryAfterMonths := 2 }

def searchPreview (o : TextOrder) (firstname lastname : Text) (state : Option Text) :
    PreviewWorld × World × Except Exn (SearchResultsPage δ) :=
  let (answer, pw) := pw.getPreviews F (c.forSearch firstname lastname state)
  match answer.result with
  | .error e => (pw, w, .error e)
  | .ok response => (pw, previewPage o w v state response)

def cartAdd (env : AddEnv) (r : AddRequest) : PreviewWorld × World × Except AddExn Cart :=
  match r.firstName, r.lastName with
  | some firstname, some lastname =>
    let (answer, pw) := pw.getPreviews F (c.forCart firstname lastname r.state)
    (pw, w.addSku env v r (answer.result.map (·.map (·.queryID))))
  | _, _ => (pw, w.addSku env v r (.ok none))

end Model

section Statement

variable {δ : Type} (F : Formats (ProfileResponse δ)) (pw : PreviewWorld)
  (c : PreviewCall (ProfileResponse δ)) (w : World) (v : DBVisit)

/-- A search without previews is answered with an empty page. -/
def SearchHandles (o : TextOrder) (firstname lastname : Text) (state : Option Text) : Prop :=
  (pw.getPreviews F (c.forSearch firstname lastname state)).1.result = .ok none →
    (searchPreview F pw c w v o firstname lastname state).2 = (w, .ok {})

/-- If there are no previews, the item is added all the same. -/
def CartHandles (env : AddEnv) (r : AddRequest) : Prop :=
  ∀ firstname ∈ r.firstName, ∀ lastname ∈ r.lastName,
    (pw.getPreviews F (c.forCart firstname lastname r.state)).1.result = .ok none →
      (cartAdd F pw c w v env r).2 = w.addItem env v r

end Statement

section Callers

variable {δ : Type} {F : Formats (ProfileResponse δ)} {pw : PreviewWorld}
  {c : PreviewCall (ProfileResponse δ)} {w : World} {v : DBVisit} {firstname lastname : Text}

theorem searchPreview_none {o : TextOrder} {state : Option Text}
    (h : (pw.getPreviews F (c.forSearch firstname lastname state)).1.result = .ok none) :
    (searchPreview F pw c w v o firstname lastname state).2 = (w, .error .nullReference) := by
  simp [searchPreview, h, previewPage]

theorem cartAdd_none {env : AddEnv} {r : AddRequest}
    (hf : r.firstName = some firstname) (hl : r.lastName = some lastname)
    (h : (pw.getPreviews F (c.forCart firstname lastname r.state)).1.result = .ok none) :
    (cartAdd F pw c w v env r).2 = (w, .error .nullResponse) := by
  simp [cartAdd, hf, hl, h, World.addSku, Except.map]

theorem addItem_ne_nullResponse (w : World) (env : AddEnv) (v : DBVisit) (r : AddRequest) :
    (w.addItem env v r).2 ≠ .error .nullResponse := by
  unfold World.addItem
  split
  · simp
  · rename_i sku _
    rcases hcheck : checkSku v r sku with e | _
    · intro h
      cases h
      simpa using checkSku_declines hcheck
    · simp only
      split
      · simp
      · rename_i item _
        rcases env.spCartUpdate item with e | _ <;> simp

theorem searchHandles_iff (hw : pw.store.Wf) {o : TextOrder}
    {state : Option Text} : SearchHandles F pw c w v o firstname lastname state ↔
      ¬ Missing F pw (c.forSearch firstname lastname state) := by
  rw [← getPreviews_none_iff hw]
  refine ⟨fun h hnone => ?_, fun h hnone => absurd hnone h⟩
  have := h hnone
  rw [searchPreview_none hnone] at this
  simp at this

theorem cartHandles_iff (hw : pw.store.Wf) {env : AddEnv} {r : AddRequest} :
    CartHandles F pw c w v env r ↔ ∀ firstname ∈ r.firstName, ∀ lastname ∈ r.lastName,
      ¬ Missing F pw (c.forCart firstname lastname r.state) := by
  unfold CartHandles
  refine forall₂_congr fun firstname hf => forall₂_congr fun lastname hl => ?_
  rw [← getPreviews_none_iff hw]
  refine ⟨fun h hnone => ?_, fun h hnone => absurd hnone h⟩
  have := h hnone
  rw [cartAdd_none hf hl hnone] at this
  exact addItem_ne_nullResponse w env v r (by rw [← this])

end Callers

/-- A missing response is handled exactly if there is none, by either caller. -/
theorem handles_missing_iff {δ : Type} (F : Formats (ProfileResponse δ)) (pw : PreviewWorld)
    (hw : pw.store.Wf) (c : PreviewCall (ProfileResponse δ)) (w : World) (v : DBVisit)
    (o : TextOrder) (firstname lastname : Text) (state : Option Text) (env : AddEnv)
    (r : AddRequest) :
    (SearchHandles F pw c w v o firstname lastname state ↔
      ¬ Missing F pw (c.forSearch firstname lastname state)) ∧
    (CartHandles F pw c w v env r ↔ ∀ firstname ∈ r.firstName, ∀ lastname ∈ r.lastName,
      ¬ Missing F pw (c.forCart firstname lastname r.state)) :=
  ⟨searchHandles_iff hw, cartHandles_iff hw⟩

def lossy : Formats (ProfileResponse Unit) where
  normalize := id
  serialize _ := []
  deserialize _ := .ok none
  compress _ := []
  uncompress _ := .ok []
  profileCount r := ((r.profiles.bind id).getD []).length

def answered : PreviewCall (ProfileResponse Unit) where
  query := { searchType := 1, firstName := [], lastName := [] }
  now := (Store.johnSmith []).now
  iws _ := .response (some {})

def addAl : AddRequest := { skuID := 4, firstName := some ['A', 'l'], lastName := some ['B', 'o'] }

theorem answered_handles :
    SearchHandles lossy {} answered noWorld someVisit ordinal ['A', 'l'] ['B', 'o'] none ∧
      CartHandles lossy {} answered noWorld someVisit oneSku addAl := by
  obtain ⟨hsearch, hcart⟩ := handles_missing_iff lossy {} Store.wf_empty answered noWorld someVisit
    ordinal ['A', 'l'] ['B', 'o'] none oneSku addAl
  have hthere : ∀ c, c.iws = answered.iws → c.query.firstName = ['A', 'l'] →
      c.query.lastName = ['B', 'o'] → ¬ Missing lossy {} c := by
    rintro c hiws hf hl ⟨-, -, response, hresponse, hor⟩
    rw [hiws] at hresponse
    cases hresponse
    refine hor.elim (fun h => by cases h) fun h => h ?_
    simp only [Store.Accepts, SearchQuery.saveKey, PersonQuery.search, lossy, id, hf, hl]
    decide
  refine ⟨hsearch.2 (hthere _ rfl rfl rfl), hcart.2 ?_⟩
  rintro _ ⟨⟩ _ ⟨⟩
  exact hthere _ rfl rfl rfl

theorem rejected_not_handled :
    ¬ SearchHandles lossy { store := { rejectedNames := [['Z', 'z']] } } answered noWorld someVisit
        ordinal ['Z', 'z'] ['B', 'o'] none ∧
      ¬ CartHandles lossy { store := { rejectedNames := [['Z', 'z']] } } answered noWorld someVisit
        oneSku { addAl with firstName := some ['Z', 'z'] } := by
  constructor
  · intro h
    have := h rfl
    cases this
  · intro h
    have := h _ rfl _ rfl rfl
    cases this

end AciX.Profile
