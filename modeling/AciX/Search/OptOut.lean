import AciX.Run
import AciX.Search.Save

/-!
# Opting out

`spSearchResultsDelete` removes what is stored for a name and records the opt-out. It does nothing
at all if there are no rows, and its parameters are shorter than those the rows were saved with. So
an opt-out takes effect exactly if a search for the name is stored and both names fit
(`opt_out_takes_effect_iff`).
-/

namespace AciX.Profile

open List Sql

namespace Store

section Model

variable (s : Store) (firstName lastName : Text) (state : Option Text)

def namedRows : List ((SearchResultsRow × NameRow) × NameRow) :=
  (join (fun p ln => ln.id = p.1.lastNameID)
    (join (fun r fn => fn.id = r.firstNameID) s.searchResults s.firstNames.rows)
    s.lastNames.rows).filter fun p =>
      textEq p.1.2.name firstName && textEq p.2.name lastName &&
        textEq p.1.1.state (state.getD p.1.1.state)

def spSearchResultsDelete (optOutDate : Option DateTime) (now : DateTime) :
    List ((SearchResultsRow × NameRow) × NameRow) × Store :=
  let firstName := varchar 20 firstName
  let lastName := varchar 20 lastName
  let state := state.map (char 2)
  let rows := s.namedRows firstName lastName state
  let ids := rows.map (·.1.1.id)
  if ids.isEmpty then ([], s)
  else (rows,
    { s with
      searchResults := s.searchResults.filter (·.id ∉ ids)
      iwsCache := s.iwsCache.filter (·.queryID ∉ ids)
      optOuts := s.optOuts ++ [{ firstName := firstName
                                 lastName := lastName
                                 state := state
                                 optOutDate := optOutDate.getD now }] })

end Model

def isFor (s : Store) (firstName lastName : Text) (state : Option Text)
    (r : SearchResultsRow) : Bool :=
  s.firstNames.find firstName == some r.firstNameID &&
    s.lastNames.find lastName == some r.lastNameID && state.all (textEq r.state ·)

/-- The opt-out took effect: the rows for the name and their results are gone, all others are
left, a search for the name finds nothing, and the opt-out is on record. -/
structure OptedOut (s s' : Store) (firstName lastName : Text) (state : Option Text) : Prop where
  rows : s'.searchResults = s.searchResults.filter fun r => !s.isFor firstName lastName state r
  results : s'.iwsCache = s.iwsCache.filter fun c =>
    !s.searchResults.any fun r => s.isFor firstName lastName state r && r.id = c.queryID
  notFound : ∀ searchType middleName st, (∀ x ∈ state, st = some x) →
    (s'.spSearchResultsGet ⟨searchType, firstName, middleName, lastName, st⟩
      none none none).1.queryID = none
  recorded : ∃ o, s'.optOuts = s.optOuts ++ [o] ∧ textEq o.firstName firstName = true ∧
    textEq o.lastName lastName = true ∧
    Option.Rel (fun a b => textEq a b = true) o.state state

variable {s s' : Store} {firstName lastName : Text} {state : Option Text} {r : SearchResultsRow}

theorem isFor_iff : s.isFor firstName lastName state r = true ↔
    s.firstNames.find firstName = some r.firstNameID ∧
      s.lastNames.find lastName = some r.lastNameID ∧
      ∀ x ∈ state, textEq r.state x = true := by
  cases state <;> simp [isFor, and_assoc]

theorem mem_namedRows {i : ℤ} : i ∈ (s.namedRows firstName lastName state).map (·.1.1.id) ↔
    ∃ r ∈ s.searchResults, s.isFor firstName lastName state r = true ∧ r.id = i := by
  have hstate : ∀ r : SearchResultsRow, textEq r.state (state.getD r.state) = true ↔
      ∀ x ∈ state, textEq r.state x = true := by
    intro r
    cases state <;> simp
  rw [mem_map]
  constructor
  · rintro ⟨⟨⟨r, fn⟩, ln⟩, hmem, rfl⟩
    simp only [namedRows, mem_filter, mem_join, Bool.and_eq_true, decide_eq_true_eq] at hmem
    obtain ⟨⟨⟨hr, hfn, hfid⟩, hln, hlid⟩, ⟨hf, hl⟩, hs⟩ := hmem
    exact ⟨r, hr, isFor_iff.2 ⟨NameTable.find_eq_some.2 ⟨fn, hfn, hfid, hf⟩,
      NameTable.find_eq_some.2 ⟨ln, hln, hlid, hl⟩, (hstate r).1 hs⟩, rfl⟩
  · rintro ⟨r, hr, hfor, rfl⟩
    obtain ⟨hf, hl, hs⟩ := isFor_iff.1 hfor
    obtain ⟨fn, hfn, hfid, hf⟩ := NameTable.find_eq_some.1 hf
    obtain ⟨ln, hln, hlid, hl⟩ := NameTable.find_eq_some.1 hl
    refine ⟨((r, fn), ln), ?_, rfl⟩
    simp only [namedRows, mem_filter, mem_join, Bool.and_eq_true, decide_eq_true_eq]
    exact ⟨⟨⟨hr, hfn, hfid⟩, hln, hlid⟩, ⟨hf, hl⟩, (hstate r).2 hs⟩

theorem isFor_congr {firstName' lastName' : Text} {state' : Option Text}
    (hf : textEq firstName firstName' = true) (hl : textEq lastName lastName' = true)
    (hs : Option.Rel (fun a b => textEq a b = true) state state') :
    s.isFor firstName lastName state = s.isFor firstName' lastName' state' := by
  funext r
  unfold isFor
  rw [NameTable.find_congr hf, NameTable.find_congr hl]
  rcases hs with ⟨hs⟩ | _
  · simp only [Option.all_some, textEq, textEq_iff.1 hs]
  · rfl

section Delete

variable (s : Store) (firstName lastName : Text) (state : Option Text) (date : Option DateTime)
  (now : DateTime)

def deletes (s : Store) (firstName lastName : Text) (state : Option Text) : SearchResultsRow →
    Bool :=
  s.isFor (varchar 20 firstName) (varchar 20 lastName) (state.map (char 2))

theorem delete_of_none (h : ∀ r ∈ s.searchResults, s.deletes firstName lastName state r = false) :
    (s.spSearchResultsDelete firstName lastName state date now).2 = s := by
  have hempty : ((s.namedRows (varchar 20 firstName) (varchar 20 lastName)
      (state.map (char 2))).map (·.1.1.id)).isEmpty = true := by
    rw [List.isEmpty_iff, eq_nil_iff_forall_not_mem]
    intro i hi
    obtain ⟨r, hr, hfor, -⟩ := mem_namedRows.1 hi
    have := h r hr
    unfold deletes at this
    rw [hfor] at this
    cases this
  unfold spSearchResultsDelete
  simp only [hempty, if_true]

theorem delete_of_some (hw : s.Wf) {r : SearchResultsRow} (hr : r ∈ s.searchResults)
    (h : s.deletes firstName lastName state r = true) :
    (s.spSearchResultsDelete firstName lastName state date now).2 =
      { s with
        searchResults := s.searchResults.filter fun r => !s.deletes firstName lastName state r
        iwsCache := s.iwsCache.filter fun c =>
          !s.searchResults.any fun r => s.deletes firstName lastName state r && r.id = c.queryID
        optOuts := s.optOuts ++ [{ firstName := varchar 20 firstName
                                   lastName := varchar 20 lastName
                                   state := state.map (char 2)
                                   optOutDate := date.getD now }] } := by
  have hmem : ∀ i, i ∈ (s.namedRows (varchar 20 firstName) (varchar 20 lastName)
      (state.map (char 2))).map (·.1.1.id) ↔
      ∃ r ∈ s.searchResults, s.deletes firstName lastName state r = true ∧ r.id = i :=
    fun i => mem_namedRows
  have hne : ((s.namedRows (varchar 20 firstName) (varchar 20 lastName)
      (state.map (char 2))).map (·.1.1.id)).isEmpty = false := by
    rw [Bool.eq_false_iff, ne_eq, List.isEmpty_iff]
    exact ne_nil_of_mem ((hmem r.id).2 ⟨r, hr, h, rfl⟩)
  have hrows : s.searchResults.filter (fun r => decide (r.id ∉ (s.namedRows
      (varchar 20 firstName) (varchar 20 lastName)
      (state.map (char 2))).map (·.1.1.id))) =
      s.searchResults.filter fun r => !s.deletes firstName lastName state r := by
    refine filter_congr fun r hr => ?_
    rw [Bool.eq_iff_iff, decide_eq_true_eq, Bool.not_eq_true', ← Bool.not_eq_true, not_iff_not,
      hmem]
    constructor
    · rintro ⟨r', hr', hdel, hid⟩
      exact hw.ids.eq hr' hr hid ▸ hdel
    · exact fun h => ⟨r, hr, h, rfl⟩
  have hcache : s.iwsCache.filter (fun c => decide (c.queryID ∉ (s.namedRows
      (varchar 20 firstName) (varchar 20 lastName)
      (state.map (char 2))).map (·.1.1.id))) = s.iwsCache.filter fun c =>
        !s.searchResults.any fun r => s.deletes firstName lastName state r && r.id = c.queryID := by
    refine filter_congr fun c _ => ?_
    rw [Bool.eq_iff_iff, decide_eq_true_eq, Bool.not_eq_true', ← Bool.not_eq_true, not_iff_not,
      hmem,
      any_eq_true]
    simp only [Bool.and_eq_true, decide_eq_true_eq]
  unfold spSearchResultsDelete
  simp only [hne, Bool.false_eq_true, if_false, hrows, hcache]

end Delete

theorem Wf.filter_rows (hw : s.Wf) (p : SearchResultsRow → Bool) (cache : List IwsCacheRow)
    (optOuts : List OptOutRow) :
    { s with
      searchResults := s.searchResults.filter p, iwsCache := cache, optOuts := optOuts }.Wf where
  ids := hw.ids.filter p
  keys := hw.keys.filter p
  ahead r hr := hw.ahead r (mem_of_mem_filter hr)
  next_pos := hw.next_pos
  firstNamed r hr := hw.firstNamed r (mem_of_mem_filter hr)
  lastNamed r hr := hw.lastNamed r (mem_of_mem_filter hr)
  states r hr := hw.states r (mem_of_mem_filter hr)

theorem isFor_of_found (hw : s.Wf) {q : SearchQuery} {visitID : Option ℤ} {i : ℤ}
    (h : (s.spSearchResultsGet q visitID none none).1.queryID = some i) :
    ∃ r ∈ s.searchResults,
      s.isFor (varchar 30 q.firstName) (varchar 30 q.lastName) (some q.readKey.state) r = true := by
  by_cases ha : s.Accepts q.readKey
  · obtain ⟨hid, -⟩ := spSearchResultsGet_found hw (.none s _) ha visitID
    rw [hid, Option.map_eq_some_iff] at h
    obtain ⟨r, hr, -⟩ := h
    obtain ⟨hr, -⟩ := Option.filter_eq_some_iff.1 hr
    obtain ⟨hf, hl, -, hs, -⟩ := keyed_iff.1 (keyed_of_row hr)
    exact ⟨r, mem_of_row hr, isFor_iff.2 ⟨hf, hl, by simpa using hs⟩⟩
  · rw [spSearchResultsGet_of_rejected ha] at h
    cases h

theorem textEq_readState (hw : s.Wf) (hr : r ∈ s.searchResults) {x : Text}
    (h : textEq r.state x = true) : textEq (char 2 x) x = true ∧
      textEq (toUpper (rtrim (ltrim (varchar 2 x)))) x = true := by
  obtain ⟨hlen, hletters⟩ := hw.states r hr
  have hcollate : collate x = r.state.map foldChar := by
    rw [← textEq_iff.1 h, collate, rtrim_of_notMem fun c hc => ne_blank_of_isLetter (hletters c hc)]
  have hx : (rtrim x).length ≤ 2 := by
    have := congrArg List.length hcollate
    rw [collate, length_map, length_map] at this
    omega
  have hvarchar := textEq_iff.1 ((textEq_varchar 2 x).2 hx)
  constructor
  · rw [textEq_iff, collate_char, hvarchar]
  · rw [textEq_iff, collate_toUpper, collate_rtrim, collate_ltrim, hvarchar]
    intro c hc
    rw [hvarchar, hcollate] at hc
    obtain ⟨d, hd, rfl⟩ := mem_map.1 hc
    exact isLetter_foldChar (hletters d hd)

section TakesEffect

variable {date : Option DateTime} {now : DateTime}

theorem optedOut_of_row (hw : s.Wf) (hf : len firstName ≤ 20) (hl : len lastName ≤ 20)
    (hr : r ∈ s.searchResults) (hfor : s.isFor firstName lastName state r = true) :
    OptedOut s (s.spSearchResultsDelete firstName lastName state date now).2 firstName lastName
      state := by
  have hfirst := (textEq_varchar 20 firstName).2 hf
  have hlast := (textEq_varchar 20 lastName).2 hl
  have hstate : Option.Rel (fun a b => textEq a b = true) (state.map (char 2)) state := by
    rcases state with _ | x
    · exact .none
    · exact .some (textEq_readState hw hr ((isFor_iff.1 hfor).2.2 x rfl)).1
  have hdeletes : s.deletes firstName lastName state = s.isFor firstName lastName state :=
    isFor_congr hfirst hlast hstate
  rw [delete_of_some s firstName lastName state date now hw hr (by rw [hdeletes]; exact hfor),
    hdeletes]
  refine ⟨rfl, rfl, fun searchType middleName st hst => ?_, ⟨_, rfl, hfirst, hlast, hstate⟩⟩
  by_contra hfound
  obtain ⟨i, hi⟩ := Option.ne_none_iff_exists'.1 hfound
  obtain ⟨r', hr', hfor'⟩ := isFor_of_found (hw.filter_rows _ _ _) hi
  obtain ⟨hmem, hkept⟩ := mem_filter.1 hr'
  obtain ⟨hf', hl', hs'⟩ := isFor_iff.1 hfor'
  have hfirst30 := (textEq_varchar 30 firstName).2 (hf.trans (by decide))
  have hlast30 := (textEq_varchar 30 lastName).2 (hl.trans (by decide))
  have hagain : s.isFor firstName lastName state r' = true := by
    refine isFor_iff.2 ⟨NameTable.find_congr hfirst30 ▸ hf', NameTable.find_congr hlast30 ▸ hl', ?_⟩
    intro x hx
    obtain rfl := hst x hx
    exact textEq_trans (hs' _ rfl) (textEq_readState hw hr ((isFor_iff.1 hfor).2.2 x hx)).2
  rw [hagain] at hkept
  cases hkept

theorem row_of_optedOut (hw : s.Wf) (h : OptedOut s
    (s.spSearchResultsDelete firstName lastName state date now).2 firstName lastName state) :
    len firstName ≤ 20 ∧ len lastName ≤ 20 ∧
      ∃ r ∈ s.searchResults, s.isFor firstName lastName state r = true := by
  obtain ⟨o, ho, hfirst, hlast, hstate⟩ := h.recorded
  by_cases hany : ∃ r ∈ s.searchResults, s.deletes firstName lastName state r = true
  · obtain ⟨r, hr, hdel⟩ := hany
    rw [delete_of_some s firstName lastName state date now hw hr hdel, append_cancel_left_eq,
      List.cons.injEq] at ho
    obtain ⟨rfl, -⟩ := ho
    refine ⟨(textEq_varchar 20 firstName).1 hfirst, (textEq_varchar 20 lastName).1 hlast, r, hr, ?_⟩
    rwa [← isFor_congr hfirst hlast hstate]
  · rw [delete_of_none s firstName lastName state date now fun r hr =>
      Bool.eq_false_iff.2 fun hdel => hany ⟨r, hr, hdel⟩] at ho
    have := congrArg List.length ho
    simp at this

def saveAll (s : Store) (saves : List SaveCall) : Store :=
  run (fun s c => (s.spSearchResultsSave c).2) s saves

theorem Wf.saveAll (hw : s.Wf) (saves : List SaveCall) : (s.saveAll saves).Wf :=
  run_inv_of_step (I := Wf) (fun _ c h => h.save c) saves hw

/-- After any searches were saved, an opt-out takes effect exactly if a search for the name, in the
state, is stored and neither name is longer than twenty characters. -/
theorem opt_out_takes_effect_iff (hw : s.Wf) (saves : List SaveCall) (firstName lastName : Text)
    (state : Option Text) (date : Option DateTime) (now : DateTime) :
    OptedOut (s.saveAll saves)
      ((s.saveAll saves).spSearchResultsDelete firstName lastName state date now).2
      firstName lastName state ↔
    len firstName ≤ 20 ∧ len lastName ≤ 20 ∧
      ∃ r ∈ (s.saveAll saves).searchResults,
        (s.saveAll saves).isFor firstName lastName state r = true := by
  constructor
  · exact row_of_optedOut (hw.saveAll saves)
  · rintro ⟨hf, hl, r, hr, hfor⟩
    exact optedOut_of_row (hw.saveAll saves) hf hl hr hfor

end TakesEffect

theorem johnSmith_optedOut : OptedOut (saveAll {} [johnSmith ['q']])
    ((saveAll {} [johnSmith ['q']]).spSearchResultsDelete "john".toList "smith".toList
      (some "CA".toList) none (johnSmith []).now).2 "john".toList "smith".toList (some "CA".toList)
        :=
  (opt_out_takes_effect_iff wf_empty _ _ _ _ _ _).2 (by decide)

def longNamed : SaveCall := { johnSmith [] with firstName := "Maximiliana-Alexandrie".toList }

/-- The search for a long name stays, and an opt-out without a search is not recorded. -/
theorem opt_out_without_effect :
    (¬ OptedOut (saveAll {} [longNamed]) ((saveAll {} [longNamed]).spSearchResultsDelete
      longNamed.firstName longNamed.lastName none none longNamed.now).2 longNamed.firstName
      longNamed.lastName none) ∧
    ¬ OptedOut (saveAll {} []) ((saveAll {} []).spSearchResultsDelete
      "John".toList "Smith".toList none none longNamed.now).2
        "John".toList "Smith".toList none := by
  constructor
  · intro h
    exact absurd (row_of_optedOut (wf_empty.saveAll _) h).1 (by decide)
  · intro h
    obtain ⟨r, hr, -⟩ := (row_of_optedOut (wf_empty.saveAll _) h).2.2
    cases hr

end Store

end AciX.Profile
