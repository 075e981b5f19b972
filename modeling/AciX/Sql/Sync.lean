import AciX.Sql.Rows

/-!
# Bringing a table up to date

`sync` deletes the rows that match none of the fresh ones and then inserts the fresh rows that match
none of the rest. If neither has two rows that the server takes for equal, the outcome is the fresh
rows, as the server compares them (`sync_perm`). `addMissing` only inserts, and all rows at once
(`addMissing_ok_iff`).
-/

namespace AciX.Sql

open List

variable {α γ δ : Type*} [DecidableEq γ] [DecidableEq δ]

section Sync

variable (key : α → γ) (null : γ → Bool)

def rowEq (a b : α) : Bool := !null (key a) && key a = key b

def sync (fresh rows : List α) : List α :=
  let kept := rows.filter fun a => fresh.any fun b => rowEq key null a b
  kept ++ fresh.filter fun b => !kept.any fun a => rowEq key null a b

variable {key null} {fresh rows : List α}

theorem rowEq_iff {a b : α} : rowEq key null a b = true ↔ null (key a) = false ∧ key a = key b := by
  simp [rowEq]

theorem mem_kept {a : α} :
    a ∈ rows.filter (fun a => fresh.any fun b => rowEq key null a b) ↔
      a ∈ rows ∧ null (key a) = false ∧ ∃ b ∈ fresh, key a = key b := by
  simp only [mem_filter, any_eq_true, rowEq_iff]
  constructor
  · rintro ⟨ha, b, hb, hnull, heq⟩
    exact ⟨ha, hnull, b, hb, heq⟩
  · rintro ⟨ha, hnull, b, hb, heq⟩
    exact ⟨ha, b, hb, hnull, heq⟩

theorem mem_sync {a : α} (h : a ∈ sync key null fresh rows) : ∃ b ∈ fresh, key a = key b := by
  rcases mem_append.1 h with h | h
  · exact (mem_kept.1 h).2.2
  · exact ⟨a, (mem_filter.1 h).1, rfl⟩

theorem exists_mem_sync {b : α} (h : b ∈ fresh) :
    ∃ a ∈ sync key null fresh rows, key a = key b := by
  by_cases hb : (rows.filter fun a => fresh.any fun b => rowEq key null a b).any
      fun a => rowEq key null a b
  · obtain ⟨a, ha, heq⟩ := any_eq_true.1 hb
    exact ⟨a, mem_append_left _ ha, (rowEq_iff.1 heq).2⟩
  · exact ⟨b, mem_append_right _ (mem_filter.2 ⟨h, by simpa using hb⟩), rfl⟩

theorem unique_sync (hrows : Unique key rows) (hfresh : Unique key fresh) :
    Unique key (sync key null fresh rows) := by
  refine (hrows.filter _).append (hfresh.filter _) fun a ha b hb heq => ?_
  have hnone := (mem_filter.1 hb).2
  rw [Bool.not_eq_true', any_eq_false] at hnone
  exact hnone a ha (rowEq_iff.2 ⟨(mem_kept.1 ha).2.1, heq⟩)

theorem sync_perm (hrows : Unique key rows) (hfresh : Unique key fresh) :
    ((sync key null fresh rows).map key).Perm (fresh.map key) := by
  refine (perm_ext_iff_of_nodup (unique_sync hrows hfresh) hfresh).2 fun x => ?_
  simp only [mem_map]
  constructor
  · rintro ⟨a, ha, rfl⟩
    obtain ⟨b, hb, heq⟩ := mem_sync ha
    exact ⟨b, hb, heq.symm⟩
  · rintro ⟨b, hb, rfl⟩
    exact exists_mem_sync hb

theorem filter_null_sync :
    (sync key null fresh rows).filter (fun a => null (key a)) =
      fresh.filter fun b => null (key b) := by
  rw [sync, filter_append, filter_eq_nil_iff.2, nil_append, filter_filter]
  · refine filter_congr fun b _ => ?_
    by_cases hb : null (key b) = true
    · rw [hb, Bool.true_and, Bool.not_eq_true', any_eq_false]
      intro a _ h
      obtain ⟨ha, heq⟩ := rowEq_iff.1 h
      rw [heq, hb] at ha
      cases ha
    · simp [hb]
  · intro a ha
    simp [(mem_kept.1 ha).2.1]

theorem sync_sync_perm :
    (sync key null fresh (sync key null fresh rows)).Perm (sync key null fresh rows) := by
  set s := sync key null fresh rows with hs
  have hkept : (s.filter fun a => fresh.any fun b => rowEq key null a b) =
      s.filter fun a => !null (key a) := by
    refine filter_congr fun a ha => ?_
    obtain ⟨b, hb, heq⟩ := mem_sync ha
    rw [Bool.eq_iff_iff, any_eq_true]
    simp only [rowEq_iff, Bool.not_eq_true']
    exact ⟨fun ⟨_, _, hnull, _⟩ => hnull, fun hnull => ⟨b, hb, hnull, heq⟩⟩
  have hinserted : (fresh.filter fun b => !(s.filter fun a => !null (key a)).any
      fun a => rowEq key null a b) = s.filter fun a => null (key a) := by
    rw [hs, filter_null_sync, ← hs]
    refine filter_congr fun b hb => ?_
    rw [Bool.eq_iff_iff, Bool.not_eq_true', any_eq_false]
    constructor
    · intro h
      obtain ⟨a, ha, heq⟩ : ∃ a ∈ s, key a = key b := exists_mem_sync hb
      by_contra hnull
      have hfalse : null (key a) = false := by simpa [heq] using hnull
      exact h a (mem_filter.2 ⟨ha, by simp [hfalse]⟩) (rowEq_iff.2 ⟨hfalse, heq⟩)
    · intro hnull a _ h
      obtain ⟨ha, heq⟩ := rowEq_iff.1 h
      rw [heq, hnull] at ha
      cases ha
  rw [sync, hkept, hinserted]
  exact perm_append_comm.trans (filter_append_perm (fun a => null (key a)) s)

end Sync

section Add

variable (key : α → γ) (cols : α → δ)

/-- `INSERT ... SELECT DISTINCT ... WHERE NOT EXISTS`, and whether the key admits it. -/
def addMissing (rows new : List α) : List α × Bool :=
  let missing := distinctOn cols (new.filter fun a => !rows.any fun b => key b = key a)
  if Unique key (rows ++ missing) then (rows ++ missing, true) else (rows, false)

variable {key cols} {rows new : List α} {a : α}

theorem mem_missing (h : a ∈ distinctOn cols
    (new.filter fun a => !rows.any fun b => key b = key a)) :
    a ∈ new ∧ ∀ b ∈ rows, key b ≠ key a := by
  simpa using mem_of_mem_distinctOn h

variable (cols) in
theorem exists_mem_missing (ha : a ∈ new) (hnone : ∀ b ∈ rows, key b ≠ key a) :
    ∃ b ∈ distinctOn cols (new.filter fun a => !rows.any fun b => key b = key a), cols b = cols a :=
  exists_mem_distinctOn (mem_filter.2 ⟨ha, by simpa using hnone⟩)

theorem addMissing_ok_iff (hrows : Unique key rows) (hcols : ∀ a b, cols a = cols b → key a = key b)
    :
    (addMissing key cols rows new).2 = true ↔
      ∀ a ∈ new, ∀ b ∈ new, (∀ c ∈ rows, key c ≠ key a) → key a = key b → cols a = cols b := by
  have hok : (addMissing key cols rows new).2 = true ↔ Unique key
      (rows ++ distinctOn cols (new.filter fun a => !rows.any fun b => key b = key a)) := by
    simp only [addMissing]
    split_ifs with h <;> simp [h]
  rw [hok]
  constructor
  · intro hu a ha b hb hnone heq
    have hnone' : ∀ c ∈ rows, key c ≠ key b := fun c hc => heq ▸ hnone c hc
    obtain ⟨a', ha', hca⟩ := exists_mem_missing cols ha hnone
    obtain ⟨b', hb', hcb⟩ := exists_mem_missing cols hb hnone'
    have hkey : key a' = key b' := by rw [hcols _ _ hca, hcols _ _ hcb, heq]
    rw [← hca, ← hcb, hu.eq (mem_append_right _ ha') (mem_append_right _ hb') hkey]
  · intro h
    refine hrows.append ?_ fun a ha b hb => (mem_missing hb).2 a ha
    refine (nodup_map_iff_inj_on (unique_distinctOn _).nodup).2 fun a ha b hb heq => ?_
    obtain ⟨ha', hnone⟩ := mem_missing ha
    exact (unique_distinctOn _).eq ha hb (h a ha' b (mem_missing hb).1 hnone heq)

theorem exists_mem_addMissing (hok : (addMissing key cols rows new).2 = true)
    (hcols : ∀ a b, cols a = cols b → key a = key b) (ha : a ∈ new) :
    ∃ b ∈ (addMissing key cols rows new).1, key b = key a := by
  simp only [addMissing] at hok ⊢
  split_ifs at hok ⊢
  by_cases hnone : ∀ b ∈ rows, key b ≠ key a
  · obtain ⟨b, hb, heq⟩ := exists_mem_missing cols ha hnone
    exact ⟨b, mem_append_right _ hb, hcols _ _ heq⟩
  · push Not at hnone
    obtain ⟨b, hb, heq⟩ := hnone
    exact ⟨b, mem_append_left _ hb, heq⟩

theorem mem_addMissing (h : a ∈ (addMissing key cols rows new).1) : a ∈ rows ∨ a ∈ new := by
  simp only [addMissing] at h
  split_ifs at h
  · exact (mem_append.1 h).imp_right fun h => (mem_missing h).1
  · exact .inl h

theorem unique_addMissing (h : Unique key rows) : Unique key (addMissing key cols rows new).1 := by
  simp only [addMissing]
  split_ifs with hnew
  · exact hnew
  · exact h

theorem mem_addMissing_left (h : a ∈ rows) : a ∈ (addMissing key cols rows new).1 := by
  simp only [addMissing]
  split_ifs
  · exact mem_append_left _ h
  · exact h

end Add

end AciX.Sql
