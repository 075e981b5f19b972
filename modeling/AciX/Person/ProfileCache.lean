import AciX.Run
import AciX.Sql.Rows

/-!
# The cache of profiles

`GetProfile` keeps what it is told of a profile under the profile's id and the list of the
attributes asked for. `spProfileSave` looks for the row of both, and if there is one updates every
row of the id, so a list saved again overwrites what is kept for the others (`saves_faithful_iff`).
It takes two requests at the same time to come to that (`getProfile_saves`).
-/

namespace AciX.ProfileCache

open List Sql

variable {J : Type}

structure ProfileRow (J : Type) where
  profileID : Text
  profileAttributes : Option Text
  compressedJson : J
  dateCached : ℤ
  durationMsecs : Option ℤ

structure Save (J : Type) where
  profileID : Text
  profileAttributes : Option Text
  compressedJson : J
  durationMsecs : Option ℤ := none
  now : ℤ := 0

section Model

variable (rows : List (ProfileRow J))

def hasID (profileID : Text) (r : ProfileRow J) : Bool :=
  textEq r.profileID (char 11 profileID)

def hasAttributes (profileAttributes : Option Text) (r : ProfileRow J) : Bool :=
  eqNull (r.profileAttributes.map collate)
    (profileAttributes.map fun a => collate (varchar 255 a))

def spProfileGet (profileID : Text) (profileAttributes : Option Text) : List (ProfileRow J) :=
  rows.filter fun r => hasID profileID r && hasAttributes profileAttributes r

def Save.write (s : Save J) (r : ProfileRow J) : ProfileRow J :=
  { r with compressedJson := s.compressedJson, durationMsecs := s.durationMsecs, dateCached :=
    s.now }

def Save.row (s : Save J) : ProfileRow J where
  profileID := char 11 s.profileID
  profileAttributes := s.profileAttributes.map (varchar 255)
  compressedJson := s.compressedJson
  dateCached := s.now
  durationMsecs := s.durationMsecs

def spProfileSave (s : Save J) : List (ProfileRow J) :=
  if rows.any fun r => hasID s.profileID r && hasAttributes s.profileAttributes r then
    rows.map fun r => if hasID s.profileID r then s.write r else r
  else rows ++ [s.row]

def getProfile (query : Text → Option Text → Option J) (now : ℤ) (durationMsecs : ℤ)
    (profileID : Text) (profileAttributes : Option Text) : List (ProfileRow J) × Option J :=
  match (spProfileGet rows profileID profileAttributes).head? with
  | some r => (rows, some r.compressedJson)
  | none =>
    match query profileID profileAttributes with
    | none => (rows, none)
    | some json =>
      (spProfileSave rows ⟨profileID, profileAttributes, json, some durationMsecs, now⟩, some json)

end Model

section Keys

def key (profileID : Text) (profileAttributes : Option Text) : Text × Option Text :=
  (collate (char 11 profileID),
    profileAttributes.map fun a => collate (varchar 255 a))

def Save.key (s : Save J) : Text × Option Text := ProfileCache.key s.profileID s.profileAttributes

def Found (p : Text) (a : Option Text) (r : ProfileRow J) : Prop :=
  hasID p r = true ∧ hasAttributes a r = true

variable {p : Text} {a : Option Text} {r : ProfileRow J} {s : Save J}

theorem found_iff : Found p a r ↔ (collate r.profileID, r.profileAttributes.map collate) =
    key p a ∧ a.isSome = true := by
  simp only [Found, hasID, hasAttributes, textEq_iff, eqNull_iff, key, Prod.mk.injEq]
  constructor
  · rintro ⟨hid, x, hr, ha⟩
    refine ⟨⟨hid, hr.trans ha.symm⟩, ?_⟩
    rcases a with _ | a
    · cases ha
    · rfl
  · rintro ⟨⟨hid, hr⟩, ha⟩
    obtain ⟨a, rfl⟩ := Option.isSome_iff_exists.1 ha
    exact ⟨hid, _, hr, rfl⟩

theorem mem_spProfileGet {rows : List (ProfileRow J)} :
    r ∈ spProfileGet rows p a ↔ r ∈ rows ∧ Found p a r := by
  simp [spProfileGet, Found]

theorem found_row : Found p a s.row ↔ s.key = key p a ∧ a.isSome = true := by
  rw [found_iff]
  simp only [Save.row, Save.key, key, Option.map_map, Function.comp_def]

theorem isSome_of_key (h : s.key = key p a) : s.profileAttributes.isSome = a.isSome := by
  have hsnd := congrArg (Option.isSome ∘ Prod.snd) h
  simpa [Save.key, key] using hsnd

theorem found_key (h : s.key = key p a) :
    Found s.profileID s.profileAttributes r ↔ Found p a r := by
  rw [found_iff, found_iff, ← h, isSome_of_key h]
  rfl

end Keys

section Step

variable {rows : List (ProfileRow J)} {s : Save J} {p : Text} {a : Option Text}

/-- A list is given. And if it is kept for the profile already, the rows of the profile's other
lists have the values saved. -/
def KeepsOthers (rows : List (ProfileRow J)) (s : Save J) : Prop :=
  s.profileAttributes.isSome = true ∧
    ((∃ r ∈ rows, Found s.profileID s.profileAttributes r) →
      ∀ r ∈ rows, hasID s.profileID r = true → r.profileAttributes.isSome = true →
        ¬Found s.profileID s.profileAttributes r → s.write r = r)

theorem spProfileSave_update (h : ∃ r ∈ rows, Found s.profileID s.profileAttributes r) :
    spProfileSave rows s = rows.map fun r => if hasID s.profileID r then s.write r else r := by
  obtain ⟨r, hr, hfound⟩ := h
  refine if_pos (any_eq_true.2 ⟨r, hr, ?_⟩)
  rw [hfound.1, hfound.2]
  rfl

theorem spProfileSave_insert (h : ¬∃ r ∈ rows, Found s.profileID s.profileAttributes r) :
    spProfileSave rows s = rows ++ [s.row] := by
  refine if_neg fun hany => h ?_
  obtain ⟨r, hr, hfound⟩ := any_eq_true.1 hany
  rw [Bool.and_eq_true] at hfound
  exact ⟨r, hr, hfound⟩

theorem spProfileGet_update :
    spProfileGet (rows.map fun r => if hasID s.profileID r then s.write r else r) p a =
      (spProfileGet rows p a).map fun r => if hasID s.profileID r then s.write r else r := by
  unfold spProfileGet
  rw [filter_map]
  congr 1
  refine filter_congr fun r _ => ?_
  simp only [Function.comp_apply]
  split_ifs <;> rfl

theorem spProfileGet_insert :
    spProfileGet (rows ++ [s.row]) p a =
      spProfileGet rows p a ++ if s.key = key p a ∧ a.isSome = true then [s.row] else [] := by
  unfold spProfileGet
  rw [filter_append, filter_singleton]
  have hiff : (hasID p s.row && hasAttributes a s.row) = true ↔
      s.key = key p a ∧ a.isSome = true := by
    rw [Bool.and_eq_true]
    exact found_row
  by_cases h : s.key = key p a ∧ a.isSome = true
  · rw [if_pos h, hiff.2 h]
    rfl
  · rw [if_neg h, Bool.eq_false_iff.2 fun hc => h (hiff.1 hc)]
    rfl

theorem spProfileGet_eq_nil (h : ¬∃ r ∈ rows, Found s.profileID s.profileAttributes r)
    (hkey : s.key = key p a) : spProfileGet rows p a = [] := by
  refine eq_nil_iff_forall_not_mem.2 fun r hr => h ?_
  obtain ⟨hmem, hr⟩ := mem_spProfileGet.1 hr
  exact ⟨r, hmem, (found_key hkey).2 hr⟩

theorem length_spProfileGet_save (h : (spProfileGet rows p a).length ≤ 1) :
    (spProfileGet (spProfileSave rows s) p a).length ≤ 1 := by
  by_cases hfound : ∃ r ∈ rows, Found s.profileID s.profileAttributes r
  · rw [spProfileSave_update hfound, spProfileGet_update, length_map]
    exact h
  · rw [spProfileSave_insert hfound, spProfileGet_insert]
    split_ifs with hkey
    · simp [spProfileGet_eq_nil hfound hkey.1]
    · simpa using h

theorem spProfileGet_save_other (h : KeepsOthers rows s) (hkey : s.key ≠ key p a) :
    spProfileGet (spProfileSave rows s) p a = spProfileGet rows p a := by
  by_cases hfound : ∃ r ∈ rows, Found s.profileID s.profileAttributes r
  · rw [spProfileSave_update hfound, spProfileGet_update]
    refine (map_congr_left fun r hr => ?_).trans (map_id _)
    obtain ⟨hmem, hr⟩ := mem_spProfileGet.1 hr
    split_ifs with hid
    · refine h.2 hfound r hmem hid ?_ fun hr' => hkey ?_
      · obtain ⟨hk, ha⟩ := found_iff.1 hr
        have hsome := congrArg (Option.isSome ∘ Prod.snd) hk
        simpa [key, ha] using hsome
      · exact (found_iff.1 hr').1.symm.trans (found_iff.1 hr).1
    · rfl
  · rw [spProfileSave_insert hfound, spProfileGet_insert, if_neg fun hc => hkey hc.1,
      append_nil]

theorem spProfileGet_save_same (h1 : (spProfileGet rows p a).length ≤ 1) (hkey : s.key = key p a)
    (ha : a.isSome = true) :
    (spProfileGet (spProfileSave rows s) p a).map (·.compressedJson) = [s.compressedJson] := by
  by_cases hfound : ∃ r ∈ rows, Found s.profileID s.profileAttributes r
  · obtain ⟨r, hmem, hr⟩ := hfound
    have hget : spProfileGet rows p a = [r] := by
      have hin : r ∈ spProfileGet rows p a := mem_spProfileGet.2 ⟨hmem, (found_key hkey).1 hr⟩
      obtain ⟨r', hr'⟩ := length_eq_one_iff.1 (le_antisymm h1 (length_pos_of_mem hin))
      rw [hr', mem_singleton] at hin
      rw [hr', hin]
    rw [spProfileSave_update ⟨r, hmem, hr⟩, spProfileGet_update, hget, map_singleton,
      if_pos hr.1]
    rfl
  · rw [spProfileSave_insert hfound, spProfileGet_insert, spProfileGet_eq_nil hfound hkey,
      if_pos ⟨hkey, ha⟩]
    rfl

theorem getProfile_saves {query : Text → Option Text → Option J} {now durationMsecs : ℤ}
    (ha : a.isSome = true) :
    (getProfile rows query now durationMsecs p a).1 = rows ∨
      ∃ s, KeepsOthers rows s ∧ (getProfile rows query now durationMsecs p a).1 =
        spProfileSave rows s := by
  unfold getProfile
  split
  · exact .inl rfl
  · rename_i hnone
    rw [head?_eq_none_iff] at hnone
    split
    · exact .inl rfl
    · refine .inr ⟨_, ⟨ha, ?_⟩, rfl⟩
      rintro ⟨r, hr, hfound⟩
      have hin := mem_spProfileGet.2 ⟨hr, hfound⟩
      rw [hnone] at hin
      cases hin

end Step

def latest (saves : List (Save J)) (p : Text) (a : Option Text) : Option (Save J) :=
  selectLast (fun s => s.key = key p a) saves

/-- At any point of the saves: what is returned for an id and a list is what was last saved for
them, and the next save does not change what is returned for others. -/
structure Faithful (saves : List (Save J)) : Prop where
  latest : ∀ before, before <+: saves → ∀ p a,
    (spProfileGet (run spProfileSave [] before) p a).map (·.compressedJson) =
      ((ProfileCache.latest before p a).map (·.compressedJson)).toList
  others : ∀ before s, before ++ [s] <+: saves → ∀ p a, s.key ≠ key p a →
    spProfileGet (run spProfileSave [] (before ++ [s])) p a =
      spProfileGet (run spProfileSave [] before) p a

theorem latest_concat (saves : List (Save J)) (s : Save J) (p : Text) (a : Option Text) :
    latest (saves ++ [s]) p a = if s.key = key p a then some s else latest saves p a := by
  simp only [latest, selectLast_concat, decide_eq_true_eq]

theorem spProfileGet_none (rows : List (ProfileRow J)) (p : Text) :
    spProfileGet rows p none = [] := by
  refine eq_nil_iff_forall_not_mem.2 fun r hr => ?_
  have hsome := (found_iff.1 (mem_spProfileGet.1 hr).2).2
  cases hsome

theorem length_spProfileGet_run (saves : List (Save J)) (p : Text) (a : Option Text) :
    (spProfileGet (run spProfileSave [] saves) p a).length ≤ 1 :=
  run_inv_of_step (I := fun rows => (spProfileGet rows p a).length ≤ 1)
    (fun _ _ h => length_spProfileGet_save h) saves (by simp [spProfileGet])

theorem length_attributes (saves : List (Save J)) :
    ∀ r ∈ run spProfileSave ([] : List (ProfileRow J)) saves, ∀ x, r.profileAttributes = some x →
      x.length ≤ 255 := by
  refine run_inv_of_step (I := fun rows : List (ProfileRow J) => ∀ r ∈ rows, ∀ x,
    r.profileAttributes = some x → x.length ≤ 255) (fun rows s h => ?_) saves (by simp)
  unfold spProfileSave
  split_ifs
  · intro r hr
    obtain ⟨r', hr', rfl⟩ := mem_map.1 hr
    split_ifs <;> exact h r' hr'
  · intro r hr x hx
    rw [mem_append, mem_singleton] at hr
    rcases hr with hr | rfl
    · exact h r hr x hx
    · obtain ⟨a, -, rfl⟩ := Option.map_eq_some_iff.1 hx
      simp [varchar]

theorem latest_of_runOk (saves : List (Save J)) (h : RunOk spProfileSave KeepsOthers [] saves)
    (p : Text) (a : Option Text) :
    (spProfileGet (run spProfileSave [] saves) p a).map (·.compressedJson) =
      ((latest saves p a).map (·.compressedJson)).toList := by
  induction saves using List.reverseRecOn with
  | nil => rfl
  | append_singleton saves s ih =>
    rw [runOk_iff_forall] at h
    have hs := h saves s (prefix_refl _)
    have hinit : RunOk spProfileSave KeepsOthers [] saves := by
      rw [runOk_iff_forall]
      exact fun before s' hpre => h before s' (hpre.trans (prefix_append _ _))
    rw [run_append, run_cons, run_nil, latest_concat]
    by_cases hkey : s.key = key p a
    · have ha : a.isSome = true := (isSome_of_key hkey).symm.trans hs.1
      rw [spProfileGet_save_same (length_spProfileGet_run saves p a) hkey ha, if_pos hkey]
      rfl
    · rw [spProfileGet_save_other hs hkey, if_neg hkey, ih hinit]

/-- What was last saved is returned, and a save leaves the others alone, exactly if every save of
the run gives a list and finds the profile's other lists with the values it writes. -/
theorem saves_faithful_iff (saves : List (Save J)) :
    Faithful saves ↔ RunOk spProfileSave KeepsOthers [] saves := by
  constructor
  · rintro ⟨hlatest, hothers⟩
    rw [runOk_iff_forall]
    intro before s hpre
    constructor
    · -- a save without a list would be the latest, and is never returned
      by_contra hnone
      rw [Bool.not_eq_true, Option.isSome_eq_false_iff, Option.isNone_iff_eq_none] at hnone
      have hget := hlatest _ hpre s.profileID none
      rw [spProfileGet_none, latest_concat, if_pos (by rw [Save.key, hnone])] at hget
      cases hget
    · intro hfound r hr hid hsome hne
      obtain ⟨x, hx⟩ := Option.isSome_iff_exists.1 hsome
      have hr' : Found s.profileID (some x) r := by
        refine ⟨hid, ?_⟩
        have hlen : varchar 255 x = x :=
          take_of_length_le (length_attributes before r hr x hx)
        simp [hasAttributes, hx, hlen]
      have hkey : s.key ≠ key s.profileID (some x) := fun hkey => hne ((found_key hkey).2 hr')
      have hsame := hothers before s hpre s.profileID (some x) hkey
      rw [run_append, run_cons, run_nil, spProfileSave_update hfound, spProfileGet_update] at hsame
      have heq := map_eq_map_iff.1 (hsame.trans (map_id _).symm) r
        (mem_spProfileGet.2 ⟨hr, hr'⟩)
      rwa [if_pos hid] at heq
  · intro h
    refine ⟨fun before hpre p a => ?_, fun before s hpre p a hkey => ?_⟩
    · refine latest_of_runOk before ?_ p a
      rw [runOk_iff_forall] at h ⊢
      exact fun init s hinit => h init s (hinit.trans hpre)
    · rw [run_append, run_cons, run_nil]
      exact spProfileGet_save_other (runOk_iff_forall.1 h before s hpre) hkey

def savedAgain : List (Save ℕ) :=
  [⟨['P'], some ['A'], 1, none, 0⟩, ⟨['P'], some ['B'], 2, none, 0⟩,
    ⟨['P'], some ['A'], 3, none, 0⟩]

theorem savedAgain_not_faithful : ¬Faithful savedAgain := by
  intro h
  have hget := h.latest savedAgain (prefix_refl _) ['P'] (some ['B'])
  exact absurd hget (by decide)

end AciX.ProfileCache
