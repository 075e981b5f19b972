import AciX.Run
import AciX.Search.Previews

/-!
# Asking once

A call of `GetPreviews` leaves the stored search, stores an answer with profiles, or stores an empty
one (`getPreviews_effect`), which the next lookup passes over. So a second call within the months is
answered from the store exactly if it is told of results that serve (`asked_once_iff`).
-/

namespace AciX.Profile

section Effects

variable {R : Type} {F : Formats R} {s : Store} {w : PreviewWorld} {c : PreviewCall R}
  {q : PersonQuery}

/-- The documented behaviour of the libraries: what is written is read back, a serialized response
has no `_t` objects, and a response has no more profiles than the limit a request asks for. -/
structure Formats.Lawful (F : Formats R) : Prop where
  uncompress_compress : ∀ r, F.uncompress (F.compress (F.serialize (some r))) =
    .ok (F.serialize (some r))
  convert_serialize : ∀ r, convertTextJson (F.serialize (some r)) = F.serialize (some r)
  deserialize_serialize : ∀ r, F.deserialize (F.serialize (some r)) = .ok (some r)
  profileCount_le : ∀ r, F.profileCount r ≤ 32767

theorem Formats.Lawful.fits (hF : F.Lawful) (r : R) :
    fitsSmallint (some (F.profileCount r : ℤ)) = true := by
  have := hF.profileCount_le r
  simp only [fitsSmallint, Option.all_some, Bool.and_eq_true, decide_eq_true_eq]
  omega

theorem Formats.Lawful.readStored (hF : F.Lawful) (r : R) :
    readStored F (some (F.compress (F.serialize (some r)))) = .ok (some (r, none)) := by
  simp only [Profile.readStored, hF.uncompress_compress, hF.convert_serialize,
    hF.deserialize_serialize, bind, Except.bind, pure, Except.pure]
  simp

theorem touches_saveJsonResults (hF : F.Lawful) (hw : s.Wf) (q : PersonQuery) (now : DateTime)
    (duration : Option ℤ) (empty : Bool) (response : Option R) (json : Text) :
    Touches s (saveJsonResults F s q now duration empty response json).2 q.search.saveKey := by
  unfold saveJsonResults
  split_ifs
  · exact touches_save hw rfl
  · rcases response with _ | r
    · exact .refl hw _
    · simp only
      split_ifs
      · exact touches_save hw (hF.fits r)
      · exact .refl hw _

section Own

variable (hF : F.Lawful) (hw : s.Wf) (ha : s.Accepts q.search.saveKey)
  (hsame : q.search.saveKey.same q.search.readKey = true)

include hw ha hsame

theorem saveJsonResults_empty (now : DateTime) (duration : Option ℤ) (response : Option R)
    (json : Text) :
    ∃ a, (saveJsonResults F s q now duration true response json).1 = .ok a ∧ a.queryID ≠ 0 ∧
      (saveJsonResults F s q now duration true response json).2.stored q.search = (none, none) := by
  obtain ⟨a, hok, hid, -, hempty⟩ := save_stored (c := { q.search with
      visitID := q.visitID
      numResults := some 0
      queryDurationMsecs := duration
      apiSource := some "iws3.0+".toList
      resultsAreEmpty := some true
      compressedResults := none
      fileSize := some 0
      now := now }) hw ha hsame rfl
  exact ⟨a, hok, hid, hempty rfl⟩

include hF

theorem saveJsonResults_results {r : R} (hr : 0 < F.profileCount r) (now : DateTime)
    (duration : Option ℤ) (json : Text) :
    ∃ a, (saveJsonResults F s q now duration false (some r) json).1 = .ok a ∧ a.queryID ≠ 0 ∧
      (saveJsonResults F s q now duration false (some r) json).2.stored q.search =
        (some now, some (F.compress json)) := by
  obtain ⟨a, hok, hid, hresults, -⟩ := save_stored (c := { q.search with
      visitID := q.visitID
      numResults := some (F.profileCount r)
      queryDurationMsecs := duration
      apiSource := some "iws3.0+".toList
      resultsAreEmpty := some false
      compressedResults := some (F.compress json)
      fileSize := some (F.compress json).length
      now := now }) hw ha hsame (hF.fits r)
  unfold saveJsonResults
  simp only [Bool.false_eq_true, if_false, hr, if_true]
  exact ⟨a, hok, hid, hresults rfl rfl rfl⟩

end Own

theorem saveJsonResults_none {r : R} (hr : F.profileCount r = 0) (now : DateTime)
    (duration : Option ℤ) (json : Text) :
    saveJsonResults F s q now duration false (some r) json = (.ok { queryID := 0 }, s) := by
  simp [saveJsonResults, hr]

/-- What a call does to the stored search: leaves it, stores an answer with profiles, or stores an
empty one. -/
inductive Effect where
  | kept
  | stored
  | emptied
  deriving DecidableEq

def Leaves (F : Formats R) (c : PreviewCall R) (s s' : Store) (q : SearchQuery) : Effect → Prop
  | .kept => s'.stored q = s.stored q
  | .stored => ∃ r, s'.stored q = (some c.now, some (F.compress (F.serialize (some r))))
  | .emptied => s'.stored q = (none, none)

def askEffect (F : Formats R) (c : PreviewCall R) : Option Effect :=
  if c.admitted then
    match c.iws 0 with
    | .response r => if r.all (F.profileCount · = 0) then some .emptied else some .stored
    | .cancelled => some .kept
    | .failed => some .emptied
    | .forbidden => none
  else some .kept

def effect (F : Formats R) (c : PreviewCall R) :
    Except Exn (Option DateTime × Option (List UInt8)) → Option Effect
  | .error _ => some .kept
  | .ok p =>
    if c.isRecent p.1 then
      match readStored F p.2 with
      | .error _ => some .kept
      | .ok none => askEffect F c
      | .ok (some (_, none)) => some .kept
      | .ok (some (r, some _)) => if 0 < F.profileCount r then some .stored else askEffect F c
    else askEffect F c

def Serves (F : Formats R) (c : PreviewCall R) (p : Option DateTime × Option (List UInt8)) : Prop :=
  c.isRecent p.1 = true ∧ ∃ r json, readStored F p.2 = .ok (some (r, json)) ∧
    (json.isSome → 0 < F.profileCount r)

def PreviewAnswer.FromStore (a : PreviewAnswer R) : Prop :=
  a.requests = 0 ∧ ∃ p, a.result = .ok (some p)

theorem requests_pos (iws : ℕ → IwsAnswer R) : ∀ retries n, 0 < (queryPreviews iws retries n).2
  | 0, n => by
    unfold queryPreviews
    cases iws n <;> simp
  | retries + 1, n => by
    unfold queryPreviews
    cases iws n <;> simp

theorem requests_of_forbidden {iws : ℕ → IwsAnswer R} {n retries : ℕ} (h : iws n = .forbidden) :
    (queryPreviews iws (retries + 1) n).2 = (queryPreviews iws retries (n + 1)).2 + 1 := by
  conv_lhs => unfold queryPreviews
  simp only [h]

section Ask

theorem ask_dictionaries (w : PreviewWorld) (c : PreviewCall R) (q : PersonQuery) :
    (w.ask F c q).2 = { w with store := (w.ask F c q).2.store } := by
  unfold PreviewWorld.ask
  split_ifs
  · rcases queryPreviews c.iws 5 0 with ⟨_ | response, requests⟩
    · rfl
    · simp only
      split <;> rfl
  · rfl

theorem ask_requests (hc : c.admitted = true) :
    (w.ask F c q).1.requests = (queryPreviews c.iws 5 0).2 := by
  unfold PreviewWorld.ask
  rw [if_pos hc]
  rcases queryPreviews c.iws 5 0 with ⟨_ | response, requests⟩
  · rfl
  · simp only
    split <;> rfl

theorem ask_not_admitted (hc : c.admitted = false) : w.ask F c q =
    ({ result := .error (.iws "Query rate exceeded; server too busy".toList) }, w) := by
  unfold PreviewWorld.ask
  rw [if_neg (by simp [hc])]

theorem ask_not_fromStore : ¬ (w.ask F c q).1.FromStore := by
  rintro ⟨hrequests, p, hp⟩
  cases hc : c.admitted
  · rw [ask_not_admitted hc] at hp
    cases hp
  · rw [ask_requests hc] at hrequests
    exact absurd hrequests (requests_pos c.iws 5 0).ne'

variable (hF : F.Lawful) (hw : w.store.Wf)

include hF hw

theorem touches_ask (c : PreviewCall R) (q : PersonQuery) :
    Touches w.store (w.ask F c q).2.store q.search.saveKey := by
  unfold PreviewWorld.ask
  split_ifs
  · rcases queryPreviews c.iws 5 0 with ⟨_ | response, requests⟩
    · exact .refl hw _
    · have h := touches_saveJsonResults hF hw q c.now (some c.queryDurationMsecs)
        (response.all (F.profileCount · = 0)) response (F.serialize response)
      simp only
      split <;> exact h
  · exact .refl hw _

variable (ha : w.store.Accepts q.search.saveKey)
  (hsame : q.search.saveKey.same q.search.readKey = true)

include ha hsame

theorem ask_leaves_of_response (hc : c.admitted = true) {response : Option R} {n : ℕ}
    (hq : queryPreviews c.iws 5 0 = (.ok response, n)) :
    Leaves F c w.store (w.ask F c q).2.store q.search
      (if response.all (F.profileCount · = 0) then .emptied else .stored) := by
  unfold PreviewWorld.ask
  rw [if_pos hc, hq]
  simp only
  split_ifs with hall
  · obtain ⟨a, hok, -, hstored⟩ := saveJsonResults_empty (F := F) hw ha hsame c.now
      (some c.queryDurationMsecs) response (F.serialize response)
    rw [hall, hok]
    exact hstored
  · rcases response with _ | r
    · simp at hall
    · have hr : 0 < F.profileCount r := by
        simp only [Option.all_some, decide_eq_true_eq] at hall
        omega
      obtain ⟨a, hok, -, hstored⟩ := saveJsonResults_results hF hw ha hsame hr c.now
        (some c.queryDurationMsecs) (F.serialize (some r))
      rw [Bool.not_eq_true] at hall
      rw [hall, hok]
      exact ⟨r, hstored⟩

theorem ask_effect : ((w.ask F c q).1.requests ≤ 1 ↔ (askEffect F c).isSome) ∧
    ∀ e ∈ askEffect F c, Leaves F c w.store (w.ask F c q).2.store q.search e := by
  unfold askEffect
  cases hc : c.admitted
  · rw [ask_not_admitted hc]
    simp [Leaves]
  · rw [ask_requests hc, if_pos rfl]
    rcases h0 : c.iws 0 with r | _ | _ | _
    · have hq : queryPreviews c.iws 5 0 = (.ok r, 1) := by simp [queryPreviews, h0]
      have hleaves := ask_leaves_of_response hF hw ha hsame hc hq
      rw [hq]
      constructor
      · simp only
        split_ifs <;> simp
      · intro e he
        simp only [← apply_ite some, Option.mem_def, Option.some.injEq] at he
        exact he ▸ hleaves
    · have hq : (queryPreviews c.iws 5 0).2 = (queryPreviews c.iws 4 1).2 + 1 :=
        requests_of_forbidden h0
      have hpos := requests_pos c.iws 4 1
      constructor
      · simp only [Option.isSome_none, Bool.false_eq_true, iff_false]
        omega
      · simp
    · have hq : queryPreviews c.iws 5 0 = (.error .web, 1) := by simp [queryPreviews, h0]
      have hleft : (w.ask F c q).2 = w := by
        unfold PreviewWorld.ask
        rw [if_pos hc, hq]
      rw [hq, hleft]
      simp [Leaves]
    · have hq : queryPreviews c.iws 5 0 = (.ok none, 1) := by simp [queryPreviews, h0]
      have hleaves := ask_leaves_of_response hF hw ha hsame hc hq
      rw [hq]
      simpa using hleaves

end Ask

theorem readStored_json {bytes : Option (List UInt8)} {r : R} {json : Text}
    (h : readStored F bytes = .ok (some (r, some json))) : json = F.serialize (some r) := by
  rcases bytes with _ | bytes
  · cases h
  · simp only [readStored, bind, Except.bind, pure, Except.pure] at h
    rcases hu : F.uncompress bytes with _ | text <;> rw [hu] at h
    · cases h
    simp only at h
    rcases hd : F.deserialize (convertTextJson text) with _ | response <;> rw [hd] at h
    · cases h
    simp only [Except.ok.injEq, Option.map_eq_some_iff, Prod.mk.injEq] at h
    obtain ⟨r', rfl, rfl, hjson⟩ := h
    split_ifs at hjson
    exact (Option.some.inj hjson).symm

section Answer

theorem answerFrom_dictionaries (w : PreviewWorld) (c : PreviewCall R) (q : PersonQuery)
    (found : FoundResults) :
    (w.answerFrom F c q found).2 = { w with store := (w.answerFrom F c q found).2.store } := by
  unfold PreviewWorld.answerFrom
  rcases readStored F found.compressedResults with e | _ | ⟨r, _ | json⟩
  · rfl
  · exact ask_dictionaries w c q
  · rfl
  · simp only
    split
    · exact ask_dictionaries _ c q
    · split_ifs
      · exact ask_dictionaries _ c q
      · rfl

variable (hF : F.Lawful) (hw : w.store.Wf)

include hF hw

theorem touches_answerFrom (c : PreviewCall R) (q : PersonQuery) (found : FoundResults) :
    Touches w.store (w.answerFrom F c q found).2.store q.search.saveKey := by
  unfold PreviewWorld.answerFrom
  rcases readStored F found.compressedResults with e | _ | ⟨r, _ | json⟩
  · exact .refl hw _
  · exact touches_ask hF hw c q
  · exact .refl hw _
  · have hsave := touches_saveJsonResults hF hw q c.now none false (some r) json
    have hask := touches_ask (w := { w with
      store := (saveJsonResults F w.store q c.now none false (some r) json).2 }) hF hsave.wf c q
    simp only
    split
    · exact hsave.trans hask
    · split_ifs
      · exact hsave.trans hask
      · exact hsave

variable (ha : w.store.Accepts q.search.saveKey)
  (hsame : q.search.saveKey.same q.search.readKey = true) {found : FoundResults}
  (hrecent : c.isRecent found.dateCached = true)

include ha hsame hrecent

theorem answerFrom_effect :
    ((w.answerFrom F c q found).1.requests ≤ 1 ↔
      (effect F c (.ok (found.dateCached, found.compressedResults))).isSome) ∧
    (∀ e ∈ effect F c (.ok (found.dateCached, found.compressedResults)),
      Leaves F c w.store (w.answerFrom F c q found).2.store q.search e) ∧
    ((w.answerFrom F c q found).1.FromStore ↔
      Serves F c (found.dateCached, found.compressedResults)) := by
  have hask := ask_effect (c := c) hF hw ha hsame
  unfold PreviewWorld.answerFrom effect Serves
  simp only [hrecent, if_true, true_and]
  rcases hr : readStored F found.compressedResults with e | _ | ⟨r, _ | json⟩
  · simp [Leaves, PreviewAnswer.FromStore]
  · refine ⟨hask.1, hask.2, ?_⟩
    simp [ask_not_fromStore]
  · simp [Leaves, PreviewAnswer.FromStore]
  · by_cases hcount : 0 < F.profileCount r
    · obtain ⟨a, hok, hid, hstored⟩ := saveJsonResults_results hF hw ha hsame hcount c.now none json
      simp only [hok, hid, if_false, hcount, if_true]
      refine ⟨by simp, ?_, ?_⟩
      · rintro e ⟨⟩
        exact ⟨r, by rw [← readStored_json hr]; exact hstored⟩
      · simp [PreviewAnswer.FromStore, hcount]
    · have hzero : F.profileCount r = 0 := by omega
      simp only [saveJsonResults_none hzero, hcount, if_true, if_false]
      refine ⟨hask.1, hask.2, ?_⟩
      simp [ask_not_fromStore, hzero]

end Answer

section Call

def PreviewWorld.fetched (F : Formats R) (w : PreviewWorld) (c : PreviewCall R) :
    Except Exn (Option DateTime × Option (List UInt8)) :=
  match c.reads with
  | some answer => answer.map fun found => (found.dateCached, found.compressedResults)
  | none => .ok (w.store.stored (F.normalize c.query).search)

structure PreviewWorld.Wf (w : PreviewWorld) : Prop where
  store : w.store.Wf
  firstNameIDs : ∀ name i, w.firstNameIDs name = some i →
    w.store.firstNames.find (Sql.varchar 30 name) = some i
  lastNameIDs : ∀ name i, w.lastNameIDs name = some i →
    w.store.lastNames.find (Sql.varchar 30 name) = some i

theorem PreviewWorld.Wf.numbered (hw : w.Wf) (q : PersonQuery) :
    w.store.Numbered (w.firstNameIDs q.firstName) (w.lastNameIDs q.lastName) q.search.readKey where
  firstName i hi := hw.firstNameIDs _ i hi
  lastName i hi := hw.lastNameIDs _ i hi

theorem grown_fetchSearchResults (w : PreviewWorld) (c : PreviewCall R) (q : PersonQuery) :
    w.store.Grown (fetchSearchResults w c q).2 := by
  unfold fetchSearchResults
  rcases c.reads with _ | answer
  · exact Store.grown_resolve _ _ _ _
  · exact .refl _

theorem touches_proceed (hF : F.Lawful) (hw : w.store.Wf) (c : PreviewCall R) (q : PersonQuery)
    (found : FoundResults) :
    Touches w.store (w.proceed F c q found).2.store q.search.saveKey := by
  unfold PreviewWorld.proceed
  split_ifs
  · exact touches_answerFrom (w := w.learn q found) hF hw c q found
  · exact touches_ask hF hw c q

theorem touches_getPreviews (hF : F.Lawful) (hw : w.store.Wf) (c : PreviewCall R) :
    Touches w.store (w.getPreviews F c).2.store (F.normalize c.query).search.saveKey := by
  have hgrown := grown_fetchSearchResults w c (F.normalize c.query)
  have htouch := touches_of_grown hw hgrown (F.normalize c.query).search.saveKey
  unfold PreviewWorld.getPreviews
  simp only
  rcases (fetchSearchResults w c (F.normalize c.query)).1 with e | found
  · exact htouch
  · exact htouch.trans (touches_proceed (w := { w with
      store := (fetchSearchResults w c (F.normalize c.query)).2 }) hF htouch.wf c _ found)

theorem proceed_effect (hF : F.Lawful) (hw : w.store.Wf) (ha : w.store.Accepts q.search.saveKey)
    (hsame : q.search.saveKey.same q.search.readKey = true) (found : FoundResults) :
    ((w.proceed F c q found).1.requests ≤ 1 ↔
      (effect F c (.ok (found.dateCached, found.compressedResults))).isSome) ∧
    (∀ e ∈ effect F c (.ok (found.dateCached, found.compressedResults)),
      Leaves F c w.store (w.proceed F c q found).2.store q.search e) ∧
    ((w.proceed F c q found).1.FromStore ↔
      Serves F c (found.dateCached, found.compressedResults)) := by
  unfold PreviewWorld.proceed
  split_ifs with hrecent
  · exact answerFrom_effect (w := w.learn q found) hF hw ha hsame hrecent
  · have hask := ask_effect (c := c) hF hw ha hsame
    have heffect : effect F c (.ok (found.dateCached, found.compressedResults)) =
        askEffect F c := by
      unfold effect
      simp only [hrecent, Bool.false_eq_true, if_false]
    rw [heffect]
    refine ⟨hask.1, hask.2, ?_⟩
    simp [ask_not_fromStore, Serves, hrecent]

theorem Leaves.of_stored {s₁ s₂ s₃ : Store} {q : SearchQuery} {e : Effect}
    (h : Leaves F c s₂ s₃ q e) (hs : s₂.stored q = s₁.stored q) : Leaves F c s₁ s₃ q e := by
  cases e with
  | kept => exact h.trans hs
  | stored => exact h
  | emptied => exact h

/-- A call, by what its lookup tells it: whether it asks IWS more than once, what it leaves of the
search, and whether it answers from the store. -/
theorem getPreviews_effect (hF : F.Lawful) (hw : w.Wf)
    (ha : w.store.Accepts (F.normalize c.query).search.saveKey)
    (hsame : (F.normalize c.query).search.saveKey.same (F.normalize c.query).search.readKey = true)
      :
    ((w.getPreviews F c).1.requests ≤ 1 ↔ (effect F c (w.fetched F c)).isSome) ∧
    (∀ e ∈ effect F c (w.fetched F c),
      Leaves F c w.store (w.getPreviews F c).2.store (F.normalize c.query).search e) ∧
    ((w.getPreviews F c).1.FromStore ↔ ∃ p, w.fetched F c = .ok p ∧ Serves F c p) := by
  have hgrown := grown_fetchSearchResults w c (F.normalize c.query)
  have htouch := touches_of_grown hw.store hgrown (F.normalize c.query).search.saveKey
  have hstored := hgrown.stored hw.store (q := (F.normalize c.query).search) ha
  have hfetched : w.fetched F c = (fetchSearchResults w c (F.normalize c.query)).1.map
      fun found => (found.dateCached, found.compressedResults) := by
    unfold PreviewWorld.fetched fetchSearchResults
    rcases c.reads with _ | answer
    · exact congrArg Except.ok (hw.store.get_stored (hw.numbered _) ha _).symm
    · rfl
  rw [hfetched]
  unfold PreviewWorld.getPreviews
  simp only
  rcases (fetchSearchResults w c (F.normalize c.query)).1 with e | found
  · refine ⟨by simp [effect, Except.map], ?_, ?_⟩
    · intro e' he'
      simp only [effect, Except.map, Option.mem_def, Option.some.injEq] at he'
      exact he' ▸ hstored
    · simp [PreviewAnswer.FromStore, Except.map]
  · obtain ⟨hrequests, hleaves, hfrom⟩ := proceed_effect (c := c) (w := { w with
      store := (fetchSearchResults w c (F.normalize c.query)).2 }) hF htouch.wf (htouch.accepts ha)
      hsame found
    refine ⟨hrequests, fun e he => (hleaves e he).of_stored hstored, ?_⟩
    simpa [Except.map] using hfrom

end Call

section Dictionaries

variable {found : FoundResults}

/-- The copy gives names the ids that the primary gives them. -/
def PreviewWorld.Agrees (F : Formats R) (w : PreviewWorld) (c : PreviewCall R) : Prop :=
  ∀ found, c.copy = some (.ok found) → found.dateCached.isSome →
    w.store.firstNames.find (Sql.varchar 30 (F.normalize c.query).firstName) =
      some found.firstNameID ∧
    w.store.lastNames.find (Sql.varchar 30 (F.normalize c.query).lastName) = some found.lastNameID

theorem PreviewWorld.Wf.of_grown (hw : w.Wf) {s' : Store} (hs : s'.Wf)
    (hf : w.store.firstNames.Grown s'.firstNames) (hl : w.store.lastNames.Grown s'.lastNames) :
    { w with store := s' }.Wf where
  store := hs
  firstNameIDs name i hi := hf.find (hw.firstNameIDs name i hi)
  lastNameIDs name i hi := hl.find (hw.lastNameIDs name i hi)

theorem PreviewWorld.Wf.learn (hw : w.Wf) (hf : w.firstNameIDs q.firstName = none →
      w.store.firstNames.find (Sql.varchar 30 q.firstName) = some found.firstNameID)
    (hl : w.lastNameIDs q.lastName = none →
      w.store.lastNames.find (Sql.varchar 30 q.lastName) = some found.lastNameID) :
    (w.learn q found).Wf where
  store := hw.store
  firstNameIDs name i hi := by
    simp only [PreviewWorld.learn] at hi
    split_ifs at hi with hnone
    · by_cases hname : name = q.firstName
      · subst hname
        rw [Function.update_self] at hi
        exact hi ▸ hf hnone
      · rw [Function.update_of_ne hname] at hi
        exact hw.firstNameIDs name i hi
    · exact hw.firstNameIDs name i hi
  lastNameIDs name i hi := by
    simp only [PreviewWorld.learn] at hi
    split_ifs at hi with hnone
    · by_cases hname : name = q.lastName
      · subst hname
        rw [Function.update_self] at hi
        exact hi ▸ hl hnone
      · rw [Function.update_of_ne hname] at hi
        exact hw.lastNameIDs name i hi
    · exact hw.lastNameIDs name i hi

theorem found_numbers {q : SearchQuery} {visitID f l : Option ℤ}
    (h : (s.spSearchResultsGet q visitID f l).1.dateCached.isSome) :
    (f = none → (s.spSearchResultsGet q visitID f l).2.firstNames.find (Sql.varchar 30 q.firstName)
      =
      some (s.spSearchResultsGet q visitID f l).1.firstNameID) ∧
    (l = none → (s.spSearchResultsGet q visitID f l).2.lastNames.find (Sql.varchar 30 q.lastName) =
      some (s.spSearchResultsGet q visitID f l).1.lastNameID) := by
  have hne : ¬ ((s.resolve f l q.readKey).1 = 0 ∨ (s.resolve f l q.readKey).2.1 = 0) := by
    intro hzero
    simp only [Store.spSearchResultsGet, Store.foundRow, hzero, if_true] at h
    cases h
  rw [not_or] at hne
  constructor
  · rintro rfl
    have hfirst := hne.1
    simp only [Store.resolve, spFirstNameGet] at hfirst
    simp only [Store.spSearchResultsGet, Store.resolve, spFirstNameGet]
    split_ifs at hfirst ⊢
    · exact absurd rfl hfirst
    · exact NameTable.find_get_self _ _
  · rintro rfl
    have hlast := hne.2
    simp only [Store.resolve, spLastNameGet] at hlast
    simp only [Store.spSearchResultsGet, Store.resolve, spLastNameGet]
    split_ifs at hlast ⊢
    · exact absurd rfl hlast
    · exact NameTable.find_get_self _ _

theorem fetched_numbers (hag : w.Agrees F c)
    (h : (fetchSearchResults w c (F.normalize c.query)).1 = .ok found)
    (hdate : found.dateCached.isSome) : (w.firstNameIDs (F.normalize c.query).firstName = none →
      (fetchSearchResults w c (F.normalize c.query)).2.firstNames.find
        (Sql.varchar 30 (F.normalize c.query).firstName) = some found.firstNameID) ∧
    (w.lastNameIDs (F.normalize c.query).lastName = none →
      (fetchSearchResults w c (F.normalize c.query)).2.lastNames.find
        (Sql.varchar 30 (F.normalize c.query).lastName) = some found.lastNameID) := by
  unfold fetchSearchResults at h ⊢
  rcases hreads : c.reads with _ | answer <;> rw [hreads] at h
  · simp only [Except.ok.injEq] at h
    subst h
    exact found_numbers hdate
  · simp only at h
    subst h
    have hcopy : c.copy = some (.ok found) := by
      unfold PreviewCall.reads at hreads
      split_ifs at hreads
      exact hreads
    obtain ⟨hf, hl⟩ := hag found hcopy hdate
    exact ⟨fun _ => hf, fun _ => hl⟩

theorem PreviewWorld.Wf.proceed (hF : F.Lawful) (hw : w.Wf)
    (h : found.dateCached.isSome → (w.learn q found).Wf) : (w.proceed F c q found).2.Wf := by
  unfold PreviewWorld.proceed
  split_ifs with hrecent
  · have hdate : found.dateCached.isSome := by
      unfold PreviewCall.isRecent at hrecent
      rcases hd : found.dateCached with _ | d
      · simp [hd] at hrecent
      · rfl
    have htouch := touches_answerFrom (w := w.learn q found) hF hw.store c q found
    rw [answerFrom_dictionaries]
    exact (h hdate).of_grown htouch.wf htouch.firstNames htouch.lastNames
  · have htouch := touches_ask hF hw.store c q
    rw [ask_dictionaries]
    exact hw.of_grown htouch.wf htouch.firstNames htouch.lastNames

theorem PreviewWorld.Wf.getPreviews (hF : F.Lawful) (hw : w.Wf) (hag : w.Agrees F c) :
    (w.getPreviews F c).2.Wf := by
  have hgrown := grown_fetchSearchResults w c (F.normalize c.query)
  have hw' := hw.of_grown (hgrown.wf hw.store) hgrown.firstNames hgrown.lastNames
  unfold PreviewWorld.getPreviews
  simp only
  rcases hfetched : (fetchSearchResults w c (F.normalize c.query)).1 with e | found
  · exact hw'
  · refine hw'.proceed hF fun hdate => ?_
    obtain ⟨hf, hl⟩ := fetched_numbers hag hfetched hdate
    exact hw'.learn hf hl

end Dictionaries

section Twice

/-- Two calls for the same search, with calls for other searches between them, send at most one
request to IWS, and the second is answered from the store. -/
def AskedOnce (F : Formats R) (w : PreviewWorld) (c₁ : PreviewCall R)
    (between : List (PreviewCall R)) (c₂ : PreviewCall R) : Prop :=
  let w₂ := run (fun w c => (w.getPreviews F c).2) (w.getPreviews F c₁).2 between
  (w.getPreviews F c₁).1.requests + (w₂.getPreviews F c₂).1.requests ≤ 1 ∧
    (w₂.getPreviews F c₂).1.FromStore

/-- The first call asks IWS once at most, and the second is told of results that serve: by the copy
if it reads that, and otherwise because the first call stored an answer with profiles or left in
place what serves still. -/
def ServedNext (F : Formats R) (w : PreviewWorld) (c₁ c₂ : PreviewCall R) : Prop :=
  ∃ e, effect F c₁ (w.fetched F c₁) = some e ∧
    match c₂.reads with
    | some answer => ∃ found, answer = .ok found ∧
        Serves F c₂ (found.dateCached, found.compressedResults)
    | none => e = .stored ∨
        e = .kept ∧ Serves F c₂ (w.store.stored (F.normalize c₁.query).search)

/-- A call in between reads a copy with the numbers of the tables and is for another search. -/
def Between (F : Formats R) (q : SearchQuery) (w : PreviewWorld) (c : PreviewCall R) : Prop :=
  w.Agrees F c ∧ q.readKey.same (F.normalize c.query).search.saveKey = false

theorem run_between (hF : F.Lawful) {q : SearchQuery} :
    ∀ {between : List (PreviewCall R)} {w : PreviewWorld}, w.Wf → w.store.Accepts q.readKey →
      RunOk (fun w c => (w.getPreviews F c).2) (Between F q) w between →
      (run (fun w c => (w.getPreviews F c).2) w between).Wf ∧
        (run (fun w c => (w.getPreviews F c).2) w between).store.Accepts q.readKey ∧
        (run (fun w c => (w.getPreviews F c).2) w between).store.stored q = w.store.stored q
  | [], _, hw, ha, _ => ⟨hw, ha, rfl⟩
  | c :: between, w, hw, ha, ⟨⟨hag, hkey⟩, hrest⟩ => by
    have htouch := touches_getPreviews hF hw.store c
    obtain ⟨hw', ha', hstored⟩ := run_between hF (hw.getPreviews hF hag) (htouch.accepts ha) hrest
    rw [run_cons]
    exact ⟨hw', ha', hstored.trans (htouch.stored hw.store ha hkey)⟩

variable {c₁ c₂ : PreviewCall R} {between : List (PreviewCall R)}

theorem serves_of_stored (hF : F.Lawful) {t : DateTime}
    (ht : c.now < t.addMonths c.requeryAfterMonths) (r : R) :
    Serves F c (some t, some (F.compress (F.serialize (some r)))) :=
  ⟨by simpa [PreviewCall.isRecent] using DateTime.addMonths_neg_lt ht, r, none, hF.readStored r,
    by simp⟩

theorem not_serves_none {bytes : Option (List UInt8)} : ¬ Serves F c (none, bytes) := by
  rintro ⟨hrecent, -⟩
  cases hrecent

/-- For a search by a middle initial and a state of letters, repeated within the months. -/
theorem asked_once_iff (hF : F.Lawful) (hw : w.Wf) (hq : c₂.query = c₁.query)
    (ha : w.store.Accepts (F.normalize c₁.query).search.saveKey)
    (hm : isInitial (((F.normalize c₁.query).middleName.map (Sql.varchar 30)).getD []) = true)
    (hs : isStateCode (((F.normalize c₁.query).state.map (Sql.varchar 2)).getD []) = true)
    (ht : c₂.now < c₁.now.addMonths c₂.requeryAfterMonths) (hag : w.Agrees F c₁)
    (hbetween : RunOk (fun w c => (w.getPreviews F c).2)
      (Between F (F.normalize c₁.query).search) (w.getPreviews F c₁).2 between) :
    AskedOnce F w c₁ between c₂ ↔ ServedNext F w c₁ c₂ := by
  have hsame : (F.normalize c₁.query).search.saveKey.same (F.normalize c₁.query).search.readKey =
      true := by
    rw [same_readKey, Bool.and_eq_true]
    exact ⟨hm, hs⟩
  obtain ⟨hrequests, hleaves, -⟩ := getPreviews_effect hF hw ha hsame
  have htouch := touches_getPreviews hF hw.store c₁
  obtain ⟨hw₂, ha₂, hstored₂⟩ := run_between hF (hw.getPreviews hF hag) (htouch.accepts ha) hbetween
  obtain ⟨-, -, hfrom⟩ := getPreviews_effect (c := c₂) hF hw₂ (by rw [hq]; exact ha₂)
    (by rw [hq]; exact hsame)
  have honce : AskedOnce F w c₁ between c₂ ↔ (w.getPreviews F c₁).1.requests ≤ 1 ∧
      ((run (fun w c => (w.getPreviews F c).2) (w.getPreviews F c₁).2 between).getPreviews
        F c₂).1.FromStore := by
    unfold AskedOnce
    constructor
    · rintro ⟨hsum, hstore⟩
      exact ⟨by omega, hstore⟩
    · rintro ⟨hfirst, hstore⟩
      refine ⟨?_, hstore⟩
      rw [hstore.1]
      omega
  rw [honce, hrequests, hfrom]
  unfold ServedNext
  rcases he : effect F c₁ (w.fetched F c₁) with _ | e
  · simp
  simp only [Option.isSome_some, true_and, Option.some.injEq, exists_eq_left']
  have hleft := hleaves e he
  unfold PreviewWorld.fetched
  rcases c₂.reads with _ | answer
  · simp only [Except.ok.injEq, exists_eq_left', hq, hstored₂]
    cases e with
    | kept =>
      rw [show _ = _ from hleft]
      simp
    | stored =>
      obtain ⟨r, hr⟩ := hleft
      rw [hr]
      simpa using serves_of_stored hF ht r
    | emptied =>
      rw [show _ = _ from hleft]
      simpa using not_serves_none
  · rcases answer with e' | found
    · simp [Except.map]
    · simp [Except.map]

end Twice

end Effects

def yesNo : Formats Bool where
  normalize := id
  serialize r := (r.map fun b => if b then ['1'] else ['0']).getD "null".toList
  deserialize t := .ok (if t = ['1'] then some true else if t = ['0'] then some false else none)
  compress t := t.map fun c => UInt8.ofNat c.toNat
  uncompress b := .ok (b.map fun x => Char.ofNat x.toNat)
  profileCount b := if b then 1 else 0

theorem yesNo_lawful : yesNo.Lawful where
  uncompress_compress r := by cases r <;> decide
  convert_serialize r := by cases r <;> decide
  deserialize_serialize r := by cases r <;> decide
  profileCount_le r := by cases r <;> decide

def johnSmithOn (day : ℕ) (answer : Bool) (h : 0 < day ∧ day ≤ 31) : PreviewCall Bool where
  query := { searchType := 1, firstName := "John".toList, middleName := some ['Q'],
             lastName := "Smith".toList, state := some "CA".toList }
  now := { month := 24179, day := day, ticks := 432000000000, day_pos := h.1, day_le := h.2 }
  iws _ := .response (some answer)

theorem wf_emptyWorld : PreviewWorld.Wf {} := ⟨Store.wf_empty, by simp, by simp⟩

theorem johnSmith_askedOnce :
    AskedOnce yesNo {} (johnSmithOn 12 true (by decide)) [] (johnSmithOn 13 true (by decide)) := by
  refine (asked_once_iff yesNo_lawful wf_emptyWorld ?_ ?_ ?_ ?_ ?_ ?_ ?_).2 ?_
  · rfl
  · decide
  · decide
  · decide
  · decide
  · intro found h
    cases h
  · trivial
  · exact ⟨.stored, by decide, Or.inl rfl⟩

/-- An answer without profiles is asked for again the next day. -/
theorem johnSmith_askedTwice :
    ¬ AskedOnce yesNo {} (johnSmithOn 12 false (by decide)) []
      (johnSmithOn 13 false (by decide)) := by
  rintro ⟨h, -⟩
  revert h
  decide

end AciX.Profile
