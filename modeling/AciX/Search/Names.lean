import AciX.Sql.Like
import AciX.Sql.Rows

/-!
# First and last names

`spFirstNameGet` and `spLastNameGet` look the number of a name up, comparing as the collation does,
and enter it if it is new; they refuse with 0 a name that is too short, starts with the same letter
three times or is like a rejected one. `fnIsNameRejected` asks the same of both names at once. A
table of names carries what its identity column and its unique index guarantee.
-/

namespace AciX.Sql

def letterAt (s : Text) (start : ℕ) : Text := (s.drop (start - 1)).take 1

end AciX.Sql

namespace AciX.Profile

open Sql

structure NameRow where
  id : ℤ
  name : Text
  deriving DecidableEq

structure NameTable where
  rows : List NameRow := []
  names : Sql.Unique (fun n => collate n.name) rows := by decide
  ids : Sql.Unique NameRow.id rows := by decide
  pos : ∀ n ∈ rows, 0 < n.id := by decide
  deriving DecidableEq

namespace NameTable

variable (t : NameTable)

def find (name : Text) : Option ℤ :=
  (selectLast (fun n => textEq n.name name) t.rows).map (·.id)

def Has (i : ℤ) : Prop := ∃ n ∈ t.rows, n.id = i

def nextID : ℤ := 1 + maxFrom 0 (t.rows.map (·.id))

variable {t} {name : Text} {i : ℤ}

theorem find_eq_some :
    t.find name = some i ↔ ∃ n ∈ t.rows, n.id = i ∧ textEq n.name name = true := by
  unfold find
  rw [Option.map_eq_some_iff]
  constructor
  · rintro ⟨n, hn, hi⟩
    obtain ⟨hmem, heq⟩ := selectLast_mem hn
    exact ⟨n, hmem, hi, heq⟩
  · rintro ⟨n, hn, hi, heq⟩
    obtain ⟨m, hm⟩ := selectLast_isSome (p := fun n => textEq n.name name) hn heq
    obtain ⟨hmem, hmeq⟩ := selectLast_mem hm
    have hmn : m = n := t.names.eq hmem hn (textEq_iff.1 (textEq_trans hmeq (textEq_symm heq)))
    exact ⟨m, hm, hmn ▸ hi⟩

theorem find_eq_none : t.find name = none ↔ ∀ n ∈ t.rows, textEq n.name name = false := by
  unfold find
  rw [Option.map_eq_none_iff, selectLast_none]

theorem has_of_find (h : t.find name = some i) : t.Has i := by
  obtain ⟨n, hn, hi, -⟩ := find_eq_some.1 h
  exact ⟨n, hn, hi⟩

theorem find_pos (h : t.find name = some i) : 0 < i := by
  obtain ⟨n, hn, rfl, -⟩ := find_eq_some.1 h
  exact t.pos n hn

theorem textEq_of_find {name name' : Text} (h : t.find name = some i)
    (h' : t.find name' = some i) : textEq name name' = true := by
  obtain ⟨n, hn, hi, heq⟩ := find_eq_some.1 h
  obtain ⟨n', hn', hi', heq'⟩ := find_eq_some.1 h'
  obtain rfl := t.ids.eq hn hn' (hi.trans hi'.symm)
  exact textEq_trans (textEq_symm heq) heq'

theorem find_congr {name name' : Text} (h : textEq name name' = true) :
    t.find name = t.find name' := by
  unfold find
  congr 2
  funext n
  simp only [textEq, textEq_iff.1 h]

theorem lt_nextID (h : t.Has i) : i < t.nextID := by
  obtain ⟨n, hn, rfl⟩ := h
  have hle : n.id ≤ maxFrom 0 (t.rows.map (·.id)) := le_maxFrom (List.mem_map.2 ⟨n, hn, rfl⟩)
  unfold nextID
  omega

def insert (t : NameTable) (name : Text) (h : t.find name = none) : NameTable where
  rows := t.rows ++ [⟨t.nextID, name⟩]
  names := by
    refine t.names.append (List.nodup_singleton _) fun n hn m hm heq => ?_
    obtain rfl := List.mem_singleton.1 hm
    have := find_eq_none.1 h n hn
    rw [textEq_iff.2 heq] at this
    cases this
  ids := by
    refine t.ids.append (List.nodup_singleton _) fun n hn m hm heq => ?_
    obtain rfl := List.mem_singleton.1 hm
    exact absurd heq (lt_nextID ⟨n, hn, rfl⟩).ne
  pos := by
    intro n hn
    rcases List.mem_append.1 hn with hn | hn
    · exact t.pos n hn
    · obtain rfl := List.mem_singleton.1 hn
      have := base_le_maxFrom 0 (t.rows.map (·.id))
      simp only [nextID]
      omega

def get (t : NameTable) (name : Text) : ℤ × NameTable :=
  match h : t.find name with
  | some i => (i, t)
  | none => (t.nextID, t.insert name h)

theorem get_of_find (h : t.find name = some i) : t.get name = (i, t) := by
  unfold get
  split
  · rename_i j hj
    rw [hj, Option.some.injEq] at h
    rw [h]
  · rename_i hn
    rw [hn] at h
    cases h

theorem rows_get (h : t.find name = none) :
    (t.get name).1 = t.nextID ∧ (t.get name).2.rows = t.rows ++ [⟨t.nextID, name⟩] := by
  unfold get
  split
  · rename_i j hj
    rw [hj] at h
    cases h
  · exact ⟨rfl, rfl⟩

theorem find_get_self (t : NameTable) (name : Text) :
    (t.get name).2.find name = some (t.get name).1 := by
  rcases h : t.find name with _ | i
  · obtain ⟨hid, hrows⟩ := rows_get h
    rw [find_eq_some, hid, hrows]
    exact ⟨⟨t.nextID, name⟩, by simp, rfl, textEq_self name⟩
  · rw [get_of_find h]
    exact h

theorem Has.get (h : t.Has i) (name : Text) : (t.get name).2.Has i := by
  rcases hf : t.find name with _ | j
  · obtain ⟨n, hn, hi⟩ := h
    exact ⟨n, by rw [(rows_get hf).2]; simp [hn], hi⟩
  · rw [get_of_find hf]
    exact h

theorem find_get (h : t.Has i) (name name' : Text) :
    (t.get name).2.find name' = some i ↔ t.find name' = some i := by
  rcases hf : t.find name with _ | j
  · rw [find_eq_some, find_eq_some, (rows_get hf).2]
    constructor
    · rintro ⟨n, hn, hi, heq⟩
      rcases List.mem_append.1 hn with hn | hn
      · exact ⟨n, hn, hi, heq⟩
      · obtain rfl := List.mem_singleton.1 hn
        exact absurd hi (lt_nextID h).ne'
    · rintro ⟨n, hn, hi, heq⟩
      exact ⟨n, by simp [hn], hi, heq⟩
  · rw [get_of_find hf]

def Grown (t t' : NameTable) : Prop :=
  ∀ i, t.Has i → t'.Has i ∧ ∀ name, t'.find name = some i ↔ t.find name = some i

theorem Grown.refl (t : NameTable) : t.Grown t := fun _ h => ⟨h, fun _ => Iff.rfl⟩

theorem Grown.trans {t t' t'' : NameTable} (h : t.Grown t') (h' : t'.Grown t'') : t.Grown t'' := by
  intro i hi
  obtain ⟨hi', hfind⟩ := h i hi
  obtain ⟨hi'', hfind'⟩ := h' i hi'
  exact ⟨hi'', fun name => (hfind' name).trans (hfind name)⟩

theorem Grown.find {t t' : NameTable} (h : t.Grown t')
    (hf : t.find name = some i) : t'.find name = some i :=
  ((h i (has_of_find hf)).2 name).2 hf

theorem grown_get (t : NameTable) (name : Text) : t.Grown (t.get name).2 :=
  fun _ h => ⟨h.get name, find_get h name⟩

end NameTable

section Rejected

variable (rejectedNames : List Text) (t : NameTable) (name : Text)

def startsTripled (name : Text) : Bool :=
  len name > 2 && textEq (Sql.letterAt name 1) (Sql.letterAt name 2) &&
    textEq (Sql.letterAt name 1) (Sql.letterAt name 3)

def isRefused (minLen : ℕ) (name : Text) : Bool :=
  len name < minLen || startsTripled name || rejectedNames.any (like name ·)

def spFirstNameGet (t : NameTable) (firstName : Text) : ℤ × NameTable :=
  if isRefused rejectedNames 1 firstName then (0, t) else t.get firstName

def spLastNameGet (t : NameTable) (lastName : Text) : ℤ × NameTable :=
  if isRefused rejectedNames 2 lastName then (0, t) else t.get lastName

def fnIsNameRejected (firstName lastName : Text) : Bool :=
  len firstName < 1 || len lastName < 2 || startsTripled firstName ||
    startsTripled lastName || rejectedNames.any (like firstName ·) ||
    rejectedNames.any (like lastName ·)

theorem fnIsNameRejected_eq (firstName lastName : Text) :
    fnIsNameRejected rejectedNames firstName lastName =
      (isRefused rejectedNames 1 firstName || isRefused rejectedNames 2 lastName) := by
  unfold fnIsNameRejected isRefused
  ac_rfl

theorem grown_spFirstNameGet : t.Grown (spFirstNameGet rejectedNames t name).2 := by
  unfold spFirstNameGet
  split_ifs
  · exact .refl t
  · exact t.grown_get name

theorem grown_spLastNameGet : t.Grown (spLastNameGet rejectedNames t name).2 := by
  unfold spLastNameGet
  split_ifs
  · exact .refl t
  · exact t.grown_get name

end Rejected

end AciX.Profile
