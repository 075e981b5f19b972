import AciX.Sql.Rows

/-!
# Inserting distinct rows

`INSERT INTO t SELECT DISTINCT ...` gives each of the distinct rows a number. How many rows of `t`
have a name is then a question about the rows selected: one iff the rows of that name agree in all
columns that `DISTINCT` compares (`length_filter_insertAll_iff`).
-/

namespace AciX.Sql

open List

variable {α β γ : Type*} [DecidableEq γ] {key : α → γ}

theorem length_distinctOn_eq_one_iff {rows : List α} :
    (distinctOn key rows).length = 1 ↔ rows ≠ [] ∧ ∀ a ∈ rows, ∀ b ∈ rows, key a = key b := by
  refine ⟨fun h => ?_, fun h => ?_⟩
  · obtain ⟨c, hc⟩ := length_eq_one_iff.1 h
    have hkey : ∀ a ∈ rows, key c = key a := by
      intro a ha
      obtain ⟨b, hb, hab⟩ : ∃ b ∈ distinctOn key rows, key b = key a := exists_mem_distinctOn ha
      rw [hc, mem_singleton] at hb
      rw [← hb, hab]
    refine ⟨?_, fun a ha b hb => (hkey a ha).symm.trans (hkey b hb)⟩
    rintro rfl
    cases hc
  · obtain ⟨hne, hkey⟩ := h
    obtain ⟨a, rows, rfl⟩ := exists_cons_of_ne_nil hne
    have hnil : (distinctOn key rows).filter (fun b => key b ≠ key a) = [] := by
      refine filter_eq_nil_iff.2 fun b hb => ?_
      have hb := mem_cons_of_mem a (mem_of_mem_distinctOn hb)
      simp [hkey b hb a mem_cons_self]
    rw [distinctOn, hnil, length_singleton]

theorem all_distinctOn {q : α → Bool} (hq : ∀ a b, key a = key b → q a = q b) (rows : List α) :
    (distinctOn key rows).all q = rows.all q := by
  rw [Bool.eq_iff_iff, all_eq_true, all_eq_true]
  refine ⟨fun h a ha => ?_, fun h a ha => h a (mem_of_mem_distinctOn ha)⟩
  obtain ⟨b, hb, hab⟩ : ∃ b ∈ distinctOn key rows, key b = key a := exists_mem_distinctOn ha
  rw [← hq b a hab]
  exact h b hb

section Join

variable {δ : Type*} {on : α → β → Bool} {f : δ → α} {rows : List δ} {table : List β}

theorem mem_join_distinctOn {x : α × β} (h : x ∈ join on (distinctOn key (rows.map f)) table) :
    ∃ r ∈ rows, x.1 = f r ∧ x.2 ∈ table ∧ on (f r) x.2 = true := by
  obtain ⟨ha, hb, hon⟩ := mem_join.1 h
  obtain ⟨r, hr, heq⟩ := mem_map.1 (mem_of_mem_distinctOn ha)
  rw [← heq] at hon
  exact ⟨r, hr, heq.symm, hb, hon⟩

theorem exists_mem_join_distinctOn (hkey : ∀ a a' b, key a = key a' → on a b = on a' b) {r : δ}
    (hr : r ∈ rows) {b : β} (hb : b ∈ table) (hon : on (f r) b = true) :
    ∃ a, (a, b) ∈ join on (distinctOn key (rows.map f)) table ∧ key a = key (f r) := by
  obtain ⟨a, ha, heq⟩ : ∃ a ∈ distinctOn key (rows.map f), key a = key (f r) :=
    exists_mem_distinctOn (mem_map_of_mem hr)
  exact ⟨a, mem_join.2 ⟨ha, hb, (hkey a (f r) b heq).trans hon⟩, heq⟩

end Join

theorem forall₂_identity_self {setID : α → ℤ → β} (next : ℤ) (rows : List α) :
    List.Forall₂ (fun a b => a ∈ rows ∧ ∃ i, b = setID a i) rows (identity setID next rows) := by
  have hself : List.Forall₂ (fun a b => a = b ∧ b ∈ rows) rows rows :=
    List.forall₂_same.2 fun a ha => ⟨rfl, ha⟩
  refine forall₂_identity (fun d a i hd => ?_) hself next
  obtain ⟨rfl, ha⟩ := hd
  exact ⟨ha, i, rfl⟩

theorem length_filter_of_forall₂ {R : α → β → Prop} {p : α → Bool} {q : β → Bool} {l : List α}
    {l' : List β} (h : List.Forall₂ R l l') (hpq : ∀ a b, R a b → p a = q b) :
    (l.filter p).length = (l'.filter q).length := by
  induction h with
  | nil => rfl
  | cons hr _ ih =>
    rw [filter_cons, filter_cons, hpq _ _ hr]
    split_ifs
    · rw [length_cons, length_cons, ih]
    · exact ih

/-- The rows that an `INSERT` adds: none if one of them cannot be stored. -/
def insertAll (storable : α → Bool) (setID : α → ℤ → β) (next : ℤ) (rows : List α) : List β :=
  if rows.all storable then identity setID next rows else []

section InsertAll

variable {storable : α → Bool} {setID : α → ℤ → β} {next : ℤ} {src : List α}

theorem unique_insertAll {id : β → ℤ} (h : ∀ a i, id (setID a i) = i) (rows : List α) :
    Unique id (insertAll storable setID next rows) := by
  unfold insertAll
  split_ifs
  · exact unique_identity h next rows
  · exact nodup_nil

variable (hstorable : ∀ a b, key a = key b → storable a = storable b)

include hstorable

theorem mem_insertAll {b : β} (h : b ∈ insertAll storable setID next (distinctOn key src)) :
    (∀ a ∈ src, storable a = true) ∧ ∃ a ∈ src, ∃ i, b = setID a i := by
  unfold insertAll at h
  split_ifs at h with hall
  · rw [all_distinctOn hstorable, all_eq_true] at hall
    obtain ⟨a, ha, i, -, rfl⟩ := mem_identity h
    exact ⟨hall, a, mem_of_mem_distinctOn ha, i, rfl⟩
  · cases h

theorem exists_mem_insertAll (h : ∀ a ∈ src, storable a = true) {a : α} (ha : a ∈ src) :
    ∃ a' ∈ src, key a' = key a ∧
      ∃ i, setID a' i ∈ insertAll storable setID next (distinctOn key src) := by
  obtain ⟨a', ha', hkey⟩ : ∃ a' ∈ distinctOn key src, key a' = key a := exists_mem_distinctOn ha
  refine ⟨a', mem_of_mem_distinctOn ha', hkey, ?_⟩
  have hall : (distinctOn key src).all storable = true := by
    rw [all_distinctOn hstorable, all_eq_true]
    exact h
  unfold insertAll
  rw [if_pos hall]
  exact exists_mem_identity ha'

theorem length_filter_insertAll_iff (h : ∀ a ∈ src, storable a = true) {p : β → Bool}
    {q : α → Bool} (hp : ∀ a ∈ src, ∀ i, p (setID a i) = q a)
    (hq : ∀ a b, key a = key b → q a = q b) :
    ((insertAll storable setID next (distinctOn key src)).filter p).length = 1 ↔
      (∃ a ∈ src, q a = true) ∧ ∀ a ∈ src, ∀ b ∈ src, q a = true → q b = true → key a = key b := by
  have hall : (distinctOn key src).all storable = true := by
    rw [all_distinctOn hstorable, all_eq_true]
    exact h
  have hlength : ((distinctOn key src).filter q).length =
      ((identity setID next (distinctOn key src)).filter p).length := by
    refine length_filter_of_forall₂ (forall₂_identity_self next _) fun a b h => ?_
    obtain ⟨ha, i, rfl⟩ := h
    exact (hp a (mem_of_mem_distinctOn ha) i).symm
  unfold insertAll
  rw [if_pos hall, ← hlength, filter_distinctOn hq, length_distinctOn_eq_one_iff]
  refine and_congr ?_ ⟨fun h a ha b hb hqa hqb => ?_, fun h a ha b hb => ?_⟩
  · rw [Ne, filter_eq_nil_iff]
    push Not
    rfl
  · exact h a (mem_filter.2 ⟨ha, hqa⟩) b (mem_filter.2 ⟨hb, hqb⟩)
  · obtain ⟨ha, hqa⟩ := mem_filter.1 ha
    obtain ⟨hb, hqb⟩ := mem_filter.1 hb
    exact h a ha b hb hqa hqb

end InsertAll

end AciX.Sql
