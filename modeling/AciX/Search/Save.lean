import AciX.Search.Results

/-!
# Saving and reading a search

A save leaves the row of its search as the call sets it, with the results, and every other search
as it was (`save_saves`); reading tells of the row of a search by its own key. So what is saved is
found again exactly if the keys of saving and reading agree (`found_again_iff`).
-/

namespace AciX.Profile

open List Sql

namespace Store

variable {s s' : Store} {k k' : Key} {r r' : SearchResultsRow} {c : SaveCall}

section Save

theorem writeCache_tables (s : Store) (i : ℤ) (b : Option (List UInt8)) :
    s.writeCache i b = { s with iwsCache := (s.writeCache i b).iwsCache } := by
  unfold writeCache
  split_ifs <;> rfl

theorem results_writeCache_self (s : Store) (i : ℤ) (b : Option (List UInt8)) :
    (s.writeCache i b).results i = b.or (s.results i) := by
  unfold writeCache results
  split_ifs with h
  · obtain ⟨c, hc, hi⟩ := any_eq_true.1 h
    obtain ⟨d, hd⟩ := selectLast_isSome (p := fun c => decide (c.queryID = i)) hc hi
    have hdi := (selectLast_mem hd).2
    simp only [decide_eq_true_eq] at hdi
    have hmap := selectLast_map (p := fun c : IwsCacheRow => decide (c.queryID = i))
      (f := fun c => if c.queryID = i then { c with compressedResults := b.or c.compressedResults }
        else c) (fun c => by split_ifs with hci <;> simp [hci]) s.iwsCache
    simp only [hmap, hd, Option.map_some, Option.bind_some, hdi, if_true]
  · have hnone : selectLast (fun c => decide (c.queryID = i)) s.iwsCache = none := by
      rw [selectLast_none]
      intro c hc
      rw [any_eq_true] at h
      exact Bool.eq_false_iff.2 fun hci => h ⟨c, hc, hci⟩
    rw [hnone]
    simp [selectLast]

theorem results_writeCache_of_ne {i j : ℤ} (hij : j ≠ i) (s : Store) (b : Option (List UInt8)) :
    (s.writeCache i b).results j = s.results j := by
  unfold writeCache results
  split_ifs with h
  · have hmap := selectLast_map (p := fun c : IwsCacheRow => decide (c.queryID = j))
      (f := fun c => if c.queryID = i then { c with compressedResults := b.or c.compressedResults }
        else c) (fun c => by split_ifs <;> rfl) s.iwsCache
    simp only [hmap]
    rcases hd : selectLast (fun c => decide (c.queryID = j)) s.iwsCache with _ | d
    · simp only [hd, Option.map_none]
    · have hdj := (selectLast_mem hd).2
      simp only [decide_eq_true_eq] at hdj
      simp only [hd, Option.map_some, Option.bind_some, hdj, if_neg hij]
  · simp [selectLast, hij.symm]

theorem Wf.iwsCache (hw : s.Wf) (cache : List IwsCacheRow) : { s with iwsCache := cache }.Wf :=
  ⟨hw.ids, hw.keys, hw.ahead, hw.next_pos, hw.firstNamed, hw.lastNamed, hw.states⟩

theorem Wf.writeCache (hw : s.Wf) (i : ℤ) (b : Option (List UInt8)) : (s.writeCache i b).Wf := by
  rw [writeCache_tables]
  exact hw.iwsCache _

@[simp] theorem row_writeCache (s : Store) (i : ℤ) (b : Option (List UInt8)) (k : Key) :
    (s.writeCache i b).row k = s.row k := by
  rw [writeCache_tables]
  rfl

def updated (queryID : ℤ) (c : SaveCall) (r : SearchResultsRow) : SearchResultsRow :=
  if r.id = queryID then r.saved c else r

theorem updated_id (i : ℤ) (c : SaveCall) (r : SearchResultsRow) : (updated i c r).id = r.id := by
  unfold updated
  split_ifs <;> rfl

theorem rowKey_updated (i : ℤ) (c : SaveCall) (r : SearchResultsRow) :
    rowKey (updated i c r) = rowKey r := by
  unfold updated
  split_ifs <;> rfl

theorem row_updateRow (s : Store) (i : ℤ) (c : SaveCall) (k : Key) :
    (s.updateRow i c).row k = (s.row k).map (updated i c) := by
  have hkeyed : s.keyed k ∘ updated i c = s.keyed k := by
    funext r
    unfold updated
    simp only [Function.comp_apply]
    split_ifs <;> rfl
  show (s.searchResults.map (updated i c)).find? (s.keyed k) = _
  rw [find?_map, hkeyed]
  rfl

theorem Wf.updateRow (hw : s.Wf) (i : ℤ) (c : SaveCall) : (s.updateRow i c).Wf := by
  have hmem : ∀ r ∈ (s.updateRow i c).searchResults,
      ∃ r₀ ∈ s.searchResults, r = updated i c r₀ := by
    intro r hr
    obtain ⟨r₀, hr₀, heq⟩ := mem_map.1 hr
    exact ⟨r₀, hr₀, heq.symm⟩
  refine ⟨hw.ids.map (updated_id i c), hw.keys.map (rowKey_updated i c), ?_, hw.next_pos, ?_, ?_,
    ?_⟩
  · intro r hr
    obtain ⟨r₀, hr₀, rfl⟩ := hmem r hr
    rw [updated_id]
    exact hw.ahead r₀ hr₀
  all_goals
    intro r hr
    obtain ⟨r₀, hr₀, rfl⟩ := hmem r hr
    unfold updated
  · split_ifs <;> exact hw.firstNamed r₀ hr₀
  · split_ifs <;> exact hw.lastNamed r₀ hr₀
  · split_ifs <;> exact hw.states r₀ hr₀

/-- What a save leaves in the tables: the row `r` of the search as the call sets it, its results,
and every other search as it was. -/
structure Saves (s s' : Store) (c : SaveCall) (r : SearchResultsRow) : Prop where
  row : s'.row c.saveKey = some (r.saved c)
  results : c.compressedResults.isSome → s'.results r.id = c.compressedResults
  otherRow : ∀ k, k.same c.saveKey = false → s'.row k = s.row k
  otherResults : ∀ k r', k.same c.saveKey = false → s.row k = some r' →
    s'.results r'.id = s.results r'.id

theorem Wf.saveOver (hw : s.Wf) (r : SearchResultsRow) (c : SaveCall) : (s.saveOver r c).Wf := by
  have hcache : (if c.compressedResults.isSome then s.writeCache r.id c.compressedResults
      else s).Wf := by
    split_ifs
    · exact hw.writeCache _ _
    · exact hw
  unfold Store.saveOver
  by_cases hfit : fitsSmallint c.numResults = true
  · simp only [hfit, if_true]
    exact hcache.updateRow _ _
  · simp only [hfit]
    exact hcache

theorem saveOver_saves (hw : s.Wf) (hr : s.row c.saveKey = some r)
    (hfit : fitsSmallint c.numResults = true) : Saves s (s.saveOver r c) c r := by
  have hrow : ∀ k, (s.saveOver r c).row k = (s.row k).map (updated r.id c) := by
    intro k
    unfold saveOver
    simp only [hfit, if_true, row_updateRow]
    split_ifs <;> simp
  have hresults : ∀ i, (s.saveOver r c).results i =
      (if c.compressedResults.isSome then s.writeCache r.id c.compressedResults
        else s).results i := by
    intro i
    unfold saveOver
    simp only [hfit, if_true]
    rfl
  refine ⟨?_, fun hsome => ?_, fun k hk => ?_, fun k r' hk hr' => ?_⟩
  · rw [hrow, hr, Option.map_some, updated, if_pos rfl]
  · rw [hresults, if_pos hsome, results_writeCache_self]
    obtain ⟨b, hb⟩ := Option.isSome_iff_exists.1 hsome
    rw [hb]
    rfl
  · rw [hrow]
    rcases hr' : s.row k with _ | r'
    · rfl
    · rw [Option.map_some, updated, if_neg (hw.id_ne hr' hr hk)]
  · rw [hresults]
    split_ifs
    · exact results_writeCache_of_ne (hw.id_ne hr' hr hk) s _
    · rfl

section New

variable {f l : ℤ} (hf : s.firstNames.find c.saveKey.firstName = some f)
  (hl : s.lastNames.find c.saveKey.lastName = some l)

include hf hl

theorem keyed_newRow (i : ℤ) : s.keyed c.saveKey (newRow i f l c) = true :=
  keyed_iff.2 ⟨hf, hl, textEq_self _, textEq_self _, rfl⟩

theorem keyed_newRow_of_not_same (hk : k.same c.saveKey = false) (i : ℤ) :
    s.keyed k (newRow i f l c) = false := by
  by_contra h
  rw [Bool.not_eq_false] at h
  rw [same_of_keyed h (keyed_newRow hf hl i)] at hk
  cases hk

theorem Wf.append_newRow (hw : s.Wf) (hr : s.row c.saveKey = none) :
    { s with
      searchResults := s.searchResults ++ [newRow s.nextQueryID f l c]
      nextQueryID := s.nextQueryID + 1 }.Wf := by
  have hmem : ∀ r ∈ s.searchResults ++ [newRow s.nextQueryID f l c],
      r ∈ s.searchResults ∨ r = newRow s.nextQueryID f l c := by
    intro r hr
    simpa using hr
  have hnext := hw.next_pos
  refine ⟨?_, ?_, ?_, by simp only; omega, ?_, ?_, ?_⟩
  · refine hw.ids.append (nodup_singleton _) fun r hr r' hr' => ?_
    obtain rfl := mem_singleton.1 hr'
    exact (hw.ahead r hr).2.ne
  · refine hw.keys.append (nodup_singleton _) fun r hmem r' hr' hkey => ?_
    obtain rfl := mem_singleton.1 hr'
    have hnew := keyed_iff.1 (keyed_newRow hf hl s.nextQueryID)
    simp only [rowKey, Prod.mk.injEq] at hkey
    obtain ⟨h1, h2, h3, h4, h5⟩ := hkey
    have hkeyed : s.keyed c.saveKey r = true := by
      rw [keyed_iff, h1, h2, h3, textEq_iff, textEq_iff, h4, h5]
      exact ⟨hnew.1, hnew.2.1, rfl, rfl, rfl⟩
    exact find?_eq_none.1 hr r hmem hkeyed
  · intro r hr
    rcases hmem r hr with hr | rfl
    · exact ⟨(hw.ahead r hr).1, (hw.ahead r hr).2.trans (lt_add_one _)⟩
    · exact ⟨hnext, lt_add_one s.nextQueryID⟩
  · intro r hr
    rcases hmem r hr with hr | rfl
    · exact hw.firstNamed r hr
    · exact NameTable.has_of_find hf
  · intro r hr
    rcases hmem r hr with hr | rfl
    · exact hw.lastNamed r hr
    · exact NameTable.has_of_find hl
  · intro r hr
    rcases hmem r hr with hr | rfl
    · exact hw.states r hr
    · exact saveKey_state c.toSearchQuery

theorem Wf.saveNew (hw : s.Wf) (hr : s.row c.saveKey = none) : (s.saveNew f l c).Wf := by
  have hnext : { s with nextQueryID := s.nextQueryID + 1 }.Wf :=
    ⟨hw.ids, hw.keys, fun r hr => ⟨(hw.ahead r hr).1, (hw.ahead r hr).2.trans (lt_add_one _)⟩,
      hw.next_pos.trans (lt_add_one _), hw.firstNamed, hw.lastNamed, hw.states⟩
  unfold Store.saveNew
  simp only []
  rw [writeCache_tables]
  by_cases hfit : fitsSmallint c.numResults = true
  · simp only [hfit, if_true]
    exact (hw.append_newRow hf hl hr).iwsCache _
  · simp only [hfit]
    exact hnext.iwsCache _

theorem saveNew_saves (hw : s.Wf) (hr : s.row c.saveKey = none)
    (hfit : fitsSmallint c.numResults = true) :
    ∃ r : SearchResultsRow, r.id = s.nextQueryID ∧ Saves s (s.saveNew f l c) c r := by
  have hsaved : ∃ r : SearchResultsRow, r.id = s.nextQueryID ∧
      newRow s.nextQueryID f l c = r.saved c := ⟨_, rfl, rfl⟩
  obtain ⟨r, hid, hnew⟩ := hsaved
  have hrow : ∀ k, (s.saveNew f l c).row k =
      (s.row k).or (if s.keyed k (newRow s.nextQueryID f l c) then
        some (newRow s.nextQueryID f l c) else none) := by
    intro k
    unfold saveNew
    simp only []
    rw [writeCache_tables]
    simp only [hfit, if_true]
    show (s.searchResults ++ [newRow s.nextQueryID f l c]).find? (s.keyed k) = _
    rw [find?_append, find?_singleton]
    rfl
  have hresults : ∀ i, (s.saveNew f l c).results i =
      ({ s with nextQueryID := s.nextQueryID + 1 }.writeCache s.nextQueryID
        c.compressedResults).results i := by
    intro i
    unfold saveNew
    simp only [hfit, if_true]
    rfl
  refine ⟨r, hid, ?_, fun hsome => ?_, fun k hk => ?_, fun k r' hk hr' => ?_⟩
  · rw [hrow, hr, keyed_newRow hf hl, if_pos rfl, hnew, Option.none_or]
  · rw [hresults, hid, results_writeCache_self]
    obtain ⟨b, hb⟩ := Option.isSome_iff_exists.1 hsome
    rw [hb]
    rfl
  · rw [hrow, keyed_newRow_of_not_same hf hl hk]
    simp
  · rw [hresults, results_writeCache_of_ne (hw.ahead r' (mem_of_row hr')).2.ne]
    rfl

end New

theorem saveRow_eq {f l : ℤ} (hw : s.Wf) (hf : s.firstNames.find c.saveKey.firstName = some f)
    (hl : s.lastNames.find c.saveKey.lastName = some l) : (s.saveRow f l c).2 =
      match s.row c.saveKey with
      | some r => s.saveOver r c
      | none => s.saveNew f l c := by
  unfold saveRow
  simp only [hw.top1_hasKey hf hl]
  split_ifs <;> rfl

theorem Wf.saveRow {f l : ℤ} (hw : s.Wf) (hf : s.firstNames.find c.saveKey.firstName = some f)
    (hl : s.lastNames.find c.saveKey.lastName = some l) : (s.saveRow f l c).2.Wf := by
  rw [saveRow_eq hw hf hl]
  rcases hr : s.row c.saveKey with _ | r
  · exact hw.saveNew hf hl hr
  · exact hw.saveOver r c

theorem saveRow_saves {f l : ℤ} (hw : s.Wf) (hf : s.firstNames.find c.saveKey.firstName = some f)
    (hl : s.lastNames.find c.saveKey.lastName = some l) (hfit : fitsSmallint c.numResults = true) :
    ∃ r hits, (s.saveRow f l c).1 = .ok { queryID := r.id, fullNameHits := hits } ∧
      Saves s (s.saveRow f l c).2 c r := by
  unfold saveRow
  simp only [hw.top1_hasKey hf hl, hfit, if_true]
  rcases hr : s.row c.saveKey with _ | r
  · obtain ⟨r, hid, hsaves⟩ := saveNew_saves hf hl hw hr hfit
    exact ⟨r, _, by rw [hid]; rfl, hsaves⟩
  · exact ⟨r, _, rfl, saveOver_saves hw hr hfit⟩

theorem Saves.of_grown (hw : s.Wf) (h : s.Grown s') {s'' : Store} (hs : Saves s' s'' c r) :
    Saves s s'' c r where
  row := hs.row
  results := hs.results
  otherRow k hk := (hs.otherRow k hk).trans (h.row hw k)
  otherResults k r' hk hr' := by
    rw [hs.otherResults k r' hk ((h.row hw k).trans hr'), h.results]

structure SameRest (s s' : Store) : Prop where
  firstNames : s'.firstNames = s.firstNames
  lastNames : s'.lastNames = s.lastNames
  rejectedNames : s'.rejectedNames = s.rejectedNames
  fullNames : s'.fullNames = s.fullNames
  optOuts : s'.optOuts = s.optOuts

theorem sameRest_saveOver (s : Store) (r : SearchResultsRow) (c : SaveCall) :
    s.SameRest (s.saveOver r c) := by
  unfold saveOver
  simp only []
  rw [writeCache_tables]
  split_ifs <;> exact ⟨rfl, rfl, rfl, rfl, rfl⟩

theorem sameRest_saveNew (s : Store) (f l : ℤ) (c : SaveCall) : s.SameRest (s.saveNew f l c) := by
  unfold saveNew
  simp only []
  rw [writeCache_tables]
  split_ifs <;> exact ⟨rfl, rfl, rfl, rfl, rfl⟩

theorem sameRest_saveRow (s : Store) (f l : ℤ) (c : SaveCall) : s.SameRest (s.saveRow f l c).2 := by
  unfold saveRow
  simp only []
  generalize Sql.top1 _ _ s.searchResults = row
  rcases row with _ | r
  · split_ifs <;> exact s.sameRest_saveNew f l c
  · split_ifs <;> exact s.sameRest_saveOver r c

theorem spSearchResultsSave_of_accepts (ha : s.Accepts c.saveKey) : s.spSearchResultsSave c =
    (s.resolve none none c.saveKey).2.2.saveRow (s.resolve none none c.saveKey).1
      (s.resolve none none c.saveKey).2.1 c :=
  if_neg (ne_true_of_eq_false ha)

theorem spSearchResultsSave_of_rejected (ha : ¬ s.Accepts c.saveKey) : s.spSearchResultsSave c =
    (.ok { queryID := 0 }, (s.resolve none none c.saveKey).2.2) :=
  if_pos (by simpa [Accepts] using ha)

theorem save_error (ha : s.Accepts c.saveKey) (hfit : fitsSmallint c.numResults = false) :
    (s.spSearchResultsSave c).1 = .error .sql := by
  rw [spSearchResultsSave_of_accepts ha]
  simp only [saveRow, hfit, Bool.false_eq_true, if_false]

theorem rejectedNames_save (s : Store) (c : SaveCall) :
    (s.spSearchResultsSave c).2.rejectedNames = s.rejectedNames := by
  by_cases ha : s.Accepts c.saveKey
  · rw [spSearchResultsSave_of_accepts ha]
    exact (sameRest_saveRow _ _ _ c).rejectedNames
  · rw [spSearchResultsSave_of_rejected ha]
    rfl

theorem Wf.save (hw : s.Wf) (c : SaveCall) : (s.spSearchResultsSave c).2.Wf := by
  have hgrown := s.grown_resolve none none c.saveKey
  by_cases ha : s.Accepts c.saveKey
  · obtain ⟨hf, hl⟩ := find_resolve (.none s c.saveKey) ha
    rw [spSearchResultsSave_of_accepts ha]
    exact (hgrown.wf hw).saveRow hf hl
  · rw [spSearchResultsSave_of_rejected ha]
    exact hgrown.wf hw

theorem save_saves (hw : s.Wf) (ha : s.Accepts c.saveKey)
    (hfit : fitsSmallint c.numResults = true) :
    ∃ r hits, (s.spSearchResultsSave c).1 = .ok { queryID := r.id, fullNameHits := hits } ∧
      Saves s (s.spSearchResultsSave c).2 c r := by
  have hgrown := s.grown_resolve none none c.saveKey
  obtain ⟨hf, hl⟩ := find_resolve (.none s c.saveKey) ha
  obtain ⟨r, hits, hanswer, hsaves⟩ := saveRow_saves (hgrown.wf hw) hf hl hfit
  rw [spSearchResultsSave_of_accepts ha]
  exact ⟨r, hits, hanswer, hsaves.of_grown hw hgrown⟩

end Save

section Read

variable {q : SearchQuery} {f l : Option ℤ}

theorem foundRow_resolve (hw : s.Wf) (hn : s.Numbered f l k) (ha : s.Accepts k) :
    (s.resolve f l k).2.2.foundRow (s.resolve f l k).1 (s.resolve f l k).2.1 k =
      (s.row k).filter (·.hasResults) := by
  have hgrown := s.grown_resolve f l k
  obtain ⟨hf, hl⟩ := find_resolve hn ha
  have hf0 := (NameTable.find_pos hf).ne'
  have hl0 := (NameTable.find_pos hl).ne'
  unfold foundRow
  rw [if_neg (by simp [hf0, hl0]), (hgrown.wf hw).top1_hasKey_and hf hl, hgrown.row hw]

theorem existingRow_resolve (hw : s.Wf) (ha : s.Accepts k) :
    (s.resolve none none k).2.2.existingRow (s.resolve none none k).1
      (s.resolve none none k).2.1 k = s.row k := by
  have hgrown := s.grown_resolve none none k
  obtain ⟨hf, hl⟩ := find_resolve (.none s k) ha
  simp only [existingRow, selectLast, hasKey_eq hf hl, (hgrown.wf hw).filter_keyed]
  rw [hgrown.row hw]
  cases s.row k <;> rfl

theorem spSearchResultsGet_found (hw : s.Wf) (hn : s.Numbered f l q.readKey)
    (ha : s.Accepts q.readKey) (visitID : Option ℤ) :
    let found := (s.spSearchResultsGet q visitID f l).1
    let row := (s.row q.readKey).filter (·.hasResults)
    found.queryID = row.map (·.id) ∧ found.dateCached = row.bind (·.dateCached) ∧
      found.compressedResults = row.bind fun r =>
        if r.dateCached.isSome then s.results r.id else none := by
  simp only [spSearchResultsGet, foundRow_resolve hw hn ha]
  refine ⟨trivial, trivial, ?_⟩
  generalize Option.filter _ (s.row q.readKey) = row
  rcases row with _ | r
  · rfl
  · simp only [Option.bind_some, Option.map_some, (s.grown_resolve f l q.readKey).results]

theorem spSearchResultsGet_of_rejected (ha : ¬ s.Accepts q.readKey) (visitID : Option ℤ) :
    (s.spSearchResultsGet q visitID none none).1.queryID = none := by
  have hzero : (s.resolve none none q.readKey).1 = 0 ∨ (s.resolve none none q.readKey).2.1 = 0 := by
    rw [Accepts, fnIsNameRejected_eq, Bool.not_eq_false, Bool.or_eq_true] at ha
    rcases ha with h | h
    · exact .inl (by simp only [resolve, spFirstNameGet, h, if_true])
    · exact .inr (by simp only [resolve, spLastNameGet, h, if_true])
  simp only [spSearchResultsGet, foundRow, hzero, if_true, Option.map_none]

theorem spSearchResultsExists_eq (hw : s.Wf) (ha : s.Accepts q.readKey) :
    (s.spSearchResultsExists q).1 =
      (((s.row q.readKey).map (·.id)).isSome, (s.row q.readKey).map (·.id)) := by
  simp only [spSearchResultsExists, existingRow_resolve hw ha]

end Read

/-- The call succeeds, and reading with the same search type, names and state finds the row it
saved and the results in it. -/
def FoundAgain (s : Store) (c : SaveCall) : Prop :=
  ∃ a, (s.spSearchResultsSave c).1 = .ok a ∧
    ((s.spSearchResultsSave c).2.spSearchResultsGet c.toSearchQuery none none none).1.queryID =
      some a.queryID ∧
    ((s.spSearchResultsSave c).2.spSearchResultsGet c.toSearchQuery
      none none none).1.compressedResults = c.compressedResults ∧
    ((s.spSearchResultsSave c).2.spSearchResultsExists c.toSearchQuery).1 = (true, some a.queryID)

section FoundAgain

theorem saved_hasResults (hb : c.compressedResults.isSome) (he : c.resultsAreEmpty = some false)
    (hsrc : c.apiSource = some "iws3.0+".toList) (r : SearchResultsRow) :
    (r.saved c).hasResults = true := by
  simp only [SearchResultsRow.hasResults, SearchResultsRow.saved, hb, he, hsrc]
  decide

variable (hw : s.Wf) (ha : s.Accepts c.saveKey) (hb : c.compressedResults.isSome)
  (he : c.resultsAreEmpty = some false) (hsrc : c.apiSource = some "iws3.0+".toList)

include hw ha hb he hsrc

theorem foundAgain_iff_same : FoundAgain s c ↔
    c.saveKey.same c.readKey = true ∧ fitsSmallint c.numResults = true := by
  have ha' : (s.spSearchResultsSave c).2.Accepts c.readKey := by
    unfold Accepts
    rw [rejectedNames_save]
    exact ha
  obtain ⟨hid, -, hresults⟩ := spSearchResultsGet_found (hw.save c) (.none _ _) ha' none
  have hexists := spSearchResultsExists_eq (hw.save c) ha'
  unfold FoundAgain
  by_cases hfit : fitsSmallint c.numResults = true
  · obtain ⟨r, hits, hanswer, hsaves⟩ := save_saves hw ha hfit
    constructor
    · rintro ⟨a, ha, hget, -⟩
      rw [hanswer, Except.ok.injEq] at ha
      subst ha
      rw [hid, Option.map_eq_some_iff] at hget
      obtain ⟨r', hr', heq⟩ := hget
      obtain ⟨hr', -⟩ := Option.filter_eq_some_iff.1 hr'
      refine ⟨?_, hfit⟩
      by_contra hsame
      exact (hw.save c).id_ne hsaves.row hr' (by simpa using hsame) heq.symm
    · rintro ⟨hsame, -⟩
      have hrow := hsaves.row
      rw [row_congr hsame] at hrow
      have hhas := saved_hasResults hb he hsrc r
      refine ⟨_, hanswer, ?_, ?_, ?_⟩
      · rw [hid, hrow, Option.filter_some, if_pos hhas]
        rfl
      · rw [hresults, hrow, Option.filter_some, if_pos hhas, Option.bind_some]
        exact hsaves.results hb
      · rw [hexists, hrow]
        rfl
  · rw [Bool.not_eq_true] at hfit
    rw [save_error ha hfit, hfit]
    simp

/-- Results with a source the reading accepts are found again by the search they were saved for
exactly if the middle name is an initial or empty, the state has only letters, and the number of
results fits its column. -/
theorem found_again_iff : FoundAgain s c ↔
    isInitial ((c.middleName.map (varchar 30)).getD []) = true ∧
      isStateCode ((c.state.map (varchar 2)).getD []) = true ∧
      fitsSmallint c.numResults = true := by
  rw [foundAgain_iff_same hw ha hb he hsrc, same_readKey, Bool.and_eq_true, and_assoc]

end FoundAgain

theorem wf_empty : Wf {} where
  ids := nodup_nil
  keys := nodup_nil
  ahead := by simp
  next_pos := by decide
  firstNamed := by simp
  lastNamed := by simp
  states := by simp

def johnSmith (middleName : Text) : SaveCall where
  searchType := some 1
  firstName := "John".toList
  middleName := some middleName
  lastName := "Smith".toList
  state := some "ca".toList
  compressedResults := some [1, 2, 3]
  numResults := some 3
  apiSource := some "iws3.0+".toList
  fileSize := some 3
  now := { month := 24179, day := 12, ticks := 0 }

theorem johnSmith_found : FoundAgain {} (johnSmith ['q']) :=
  (found_again_iff wf_empty (by decide) rfl rfl rfl).2 (by decide)

/-- With a middle name of more than one letter, what was saved is not found. -/
theorem johnLeeSmith_lost : ¬ FoundAgain {} (johnSmith "Lee".toList) := by
  rw [foundAgain_iff_same wf_empty (by decide) rfl rfl rfl]
  decide

end Store

end AciX.Profile
