import AciX.Search.Save

/-!
# Names that may be missing

The parameters of the procedures may be `NULL`, which is treated as an empty name.
`fnIsNameRejected` and the two lookups, and by them a save and a read, agree on which names are
refused (`rejections_agree`).
-/

namespace AciX.Profile

theorem NameTable.refused_get_zero {t : NameTable} {name : Text} {b : Bool} :
    (if b then (0, t) else t.get name).1 = 0 ↔ b = true := by
  cases b
  · simp [(NameTable.find_pos (t.find_get_self name)).ne']
  · simp

theorem Store.saveRow_ne_zero {s : Store} (hrows : ∀ r ∈ s.searchResults, 0 < r.id)
    (hnext : 0 < s.nextQueryID) {f l : ℤ} {c : SaveCall} {a : SaveAnswer}
    (h : (s.saveRow f l c).1 = .ok a) : a.queryID ≠ 0 := by
  unfold saveRow at h
  split_ifs at h
  obtain rfl := Except.ok.inj h
  show ((Sql.top1 _ _ s.searchResults).map (·.id)).getD s.nextQueryID ≠ 0
  rcases hrow : Sql.top1 (·.id) (·.hasKey f l c.saveKey) s.searchResults with _ | r
  · rw [hrow]
    exact hnext.ne'
  · have hmem := (List.mem_insertionSort _).1 (List.mem_of_head? hrow)
    rw [hrow]
    exact (hrows r (List.mem_filter.1 hmem).1).ne'

namespace Nullable

variable (rejectedNames : List (Option Text))

section Model

def startsTripled (name : Option Text) : Bool := name.any Profile.startsTripled

def likesRejected (name : Option Text) : Bool :=
  rejectedNames.any fun r => r.any fun r => name.any (Sql.like · r)

def isRefused (minLen : ℕ) (name : Option Text) : Bool :=
  Sql.len (name.getD []) < minLen || startsTripled name || likesRejected rejectedNames name

def spFirstNameGet (t : NameTable) (firstName : Option Text) : ℤ × NameTable :=
  if isRefused rejectedNames 1 firstName then (0, t) else t.get (firstName.getD [])

def spLastNameGet (t : NameTable) (lastName : Option Text) : ℤ × NameTable :=
  if isRefused rejectedNames 2 lastName then (0, t) else t.get (lastName.getD [])

def fnIsNameRejected (firstName lastName : Option Text) : Bool :=
  Sql.len (firstName.getD []) < 1 || Sql.len (lastName.getD []) < 2 || startsTripled firstName ||
    startsTripled lastName || likesRejected rejectedNames firstName ||
    likesRejected rejectedNames lastName

variable (s : Store) (firstName lastName : Option Text)

def nameIsRejected : Bool :=
  (spFirstNameGet rejectedNames s.firstNames (firstName.map (Sql.varchar 30))).1 = 0 ||
    (spLastNameGet rejectedNames s.lastNames (lastName.map (Sql.varchar 30))).1 = 0

def spSearchResultsSave (c : SaveCall) : Except Exn SaveAnswer × Store :=
  let firstName := firstName.map (Sql.varchar 30)
  let lastName := lastName.map (Sql.varchar 30)
  let first := spFirstNameGet rejectedNames s.firstNames firstName
  let last := spLastNameGet rejectedNames s.lastNames lastName
  let s := { s with firstNames := first.2, lastNames := last.2 }
  if fnIsNameRejected rejectedNames firstName lastName then (.ok { queryID := 0 }, s)
  else s.saveRow first.1 last.1 c

end Model

variable {rejectedNames} (s : Store) (t : NameTable) (name : Option Text)

theorem isRefused_eq {minLen : ℕ} (h : 0 < minLen) : ∀ name : Option Text,
    isRefused rejectedNames minLen name =
      Profile.isRefused rejectedNames.reduceOption minLen (name.getD [])
  | none => by simp [isRefused, Profile.isRefused, Sql.len, Sql.rtrim, h]
  | some name => by
    have hlikes : likesRejected rejectedNames (some name) =
        rejectedNames.reduceOption.any (Sql.like name ·) := by
      unfold likesRejected List.reduceOption
      rw [List.any_filterMap]
      congr 1
    rw [isRefused, hlikes]
    rfl

theorem reduceOption_map_some (rejectedNames : List Text) :
    (rejectedNames.map some).reduceOption = rejectedNames := by
  simp [List.reduceOption]

theorem spFirstNameGet_eq : spFirstNameGet rejectedNames t name =
      Profile.spFirstNameGet rejectedNames.reduceOption t (name.getD []) := by
  rw [spFirstNameGet, Profile.spFirstNameGet, isRefused_eq Nat.one_pos]

theorem spLastNameGet_eq : spLastNameGet rejectedNames t name =
      Profile.spLastNameGet rejectedNames.reduceOption t (name.getD []) := by
  rw [spLastNameGet, Profile.spLastNameGet, isRefused_eq Nat.two_pos]

theorem fnIsNameRejected_eq (firstName lastName : Option Text) :
    fnIsNameRejected rejectedNames firstName lastName = Profile.fnIsNameRejected
      rejectedNames.reduceOption (firstName.getD []) (lastName.getD []) := by
  rw [Profile.fnIsNameRejected_eq, ← isRefused_eq Nat.one_pos, ← isRefused_eq Nat.two_pos,
    fnIsNameRejected, isRefused, isRefused]
  ac_rfl

theorem fnIsNameRejected_iff {t t' : NameTable} {firstName lastName : Option Text} :
    fnIsNameRejected rejectedNames firstName lastName = true ↔
      (spFirstNameGet rejectedNames t firstName).1 = 0 ∨
        (spLastNameGet rejectedNames t' lastName).1 = 0 := by
  rw [fnIsNameRejected_eq, Profile.fnIsNameRejected_eq, Bool.or_eq_true, spFirstNameGet_eq,
    spLastNameGet_eq, Profile.spFirstNameGet, NameTable.refused_get_zero, Profile.spLastNameGet,
    NameTable.refused_get_zero]

theorem nameIsRejected_some (q : SearchQuery) (visitID : Option ℤ) :
    nameIsRejected (s.rejectedNames.map some) s (some q.firstName) (some q.lastName) = true ↔
      (s.spSearchResultsGet q visitID none none).1.firstNameID = 0 ∨
        (s.spSearchResultsGet q visitID none none).1.lastNameID = 0 := by
  simp only [nameIsRejected, Bool.or_eq_true, decide_eq_true_eq, spFirstNameGet_eq,
    spLastNameGet_eq, reduceOption_map_some]
  rfl

/-- Where no name is NULL, a save rejects and stores what the save of `Store` does. -/
theorem spSearchResultsSave_some (c : SaveCall) :
    spSearchResultsSave (s.rejectedNames.map some) s (some c.firstName) (some c.lastName) c =
      s.spSearchResultsSave c := by
  simp only [spSearchResultsSave, fnIsNameRejected_eq, spFirstNameGet_eq, spLastNameGet_eq,
    reduceOption_map_some]
  rfl

/-- The function rejects the names that the procedures reject, and a save those that a lookup
rejects. -/
theorem rejections_agree (rejectedNames : List (Option Text)) (firstName lastName : Option Text) :
    (∀ t t', fnIsNameRejected rejectedNames firstName lastName = true ↔
      (spFirstNameGet rejectedNames t firstName).1 = 0 ∨
        (spLastNameGet rejectedNames t' lastName).1 = 0) ∧
    ∀ s s' c, (∀ r ∈ s.searchResults, 0 < r.id) → 0 < s.nextQueryID →
      ((∃ a, (spSearchResultsSave rejectedNames s firstName lastName c).1 = .ok a ∧
        a.queryID = 0) ↔ nameIsRejected rejectedNames s' firstName lastName = true) := by
  refine ⟨fun t t' => fnIsNameRejected_iff, fun s s' c hrows hnext => ?_⟩
  rw [nameIsRejected, Bool.or_eq_true, decide_eq_true_eq, decide_eq_true_eq,
    ← fnIsNameRejected_iff]
  unfold spSearchResultsSave
  simp only []
  split_ifs with h
  · simp [h]
  · refine iff_of_false ?_ h
    rintro ⟨a, ha, hzero⟩
    refine Store.saveRow_ne_zero ?_ ?_ ha hzero
    · exact hrows
    · exact hnext

theorem rejections_agree_null :
    nameIsRejected [some "ann".toList, none] {} (some "Ann ".toList) none = true :=
  ((rejections_agree [some "ann".toList, none] (some "Ann ".toList) none).2 {} {}
    { searchType := none, firstName := [], middleName := none, lastName := [], state := none,
      now := ⟨24180, 1, 0, by decide, by decide, by decide⟩ }
    (by simp) (by decide)).1 ⟨_, rfl, rfl⟩

end Nullable

end AciX.Profile
