import Mathlib

/-!
# Numbering rows

`ROW_NUMBER() OVER (ORDER BY key)` gives a row the number of rows with a smaller key. If the keys
are distinct, each number below the number of rows is that of one row.
-/

namespace AciX.Sql

open List

variable {α : Type*} {key : α → ℤ}

def rank (key : α → ℤ) (E : Finset α) (a : α) : ℕ := (E.filter (key · < key a)).card

section Rank

variable {E : Finset α} {a b : α}

theorem rank_lt_card (ha : a ∈ E) : rank key E a < E.card := by
  refine Finset.card_lt_card ⟨Finset.filter_subset _ _, fun h => ?_⟩
  have hlt := (Finset.mem_filter.1 (h ha)).2
  exact lt_irrefl _ hlt

theorem rank_lt_rank (ha : a ∈ E) (h : key a < key b) : rank key E a < rank key E b := by
  refine Finset.card_lt_card ⟨fun c hc => ?_, fun hsub => ?_⟩
  · rw [Finset.mem_filter] at hc ⊢
    exact ⟨hc.1, hc.2.trans h⟩
  · have hlt := (Finset.mem_filter.1 (hsub (Finset.mem_filter.2 ⟨ha, h⟩))).2
    exact lt_irrefl _ hlt

theorem rank_injOn (hkey : Set.InjOn key E) : Set.InjOn (rank key E) E := by
  intro a ha b hb h
  rcases lt_trichotomy (key a) (key b) with hlt | heq | hlt
  · have := rank_lt_rank ha hlt
    omega
  · exact hkey ha hb heq
  · have := rank_lt_rank hb hlt
    omega

theorem exists_rank_eq (hkey : Set.InjOn key E) {k : ℕ} (hk : k < E.card) :
    ∃ a ∈ E, rank key E a = k := by
  have hmaps : Set.MapsTo (rank key E) E (Finset.range E.card) := fun a ha => by
    rw [Finset.coe_range, Set.mem_Iio]
    exact rank_lt_card ha
  have hsurj := Finset.surjOn_of_injOn_of_card_le (rank key E) hmaps (rank_injOn hkey)
    (by rw [Finset.card_range])
  exact hsurj (by simpa using hk)

end Rank

section Sorted

theorem take_of_sorted (key : α → ℤ) {rows : List α} (h : rows.Pairwise (key · < key ·)) {a : α}
    {i : ℕ}
    (ha : (a, i) ∈ rows.zipIdx) : rows.take i = rows.filter (key · < key a) := by
  obtain ⟨hi, ha⟩ := mem_zipIdx' ha
  have hsplit : rows = rows.take i ++ a :: rows.drop (i + 1) := by
    rw [ha, ← drop_eq_getElem_cons hi, take_append_drop]
  rw [hsplit, pairwise_append, pairwise_cons] at h
  obtain ⟨-, ⟨hafter, -⟩, hbefore⟩ := h
  have h1 : (rows.take i).filter (key · < key a) = rows.take i := by
    refine filter_eq_self.2 fun b hb => ?_
    simpa using hbefore b hb a mem_cons_self
  have h2 : (a :: rows.drop (i + 1)).filter (key · < key a) = [] := by
    refine filter_eq_nil_iff.2 fun b hb => ?_
    rcases mem_cons.1 hb with rfl | hb
    · simp
    · have := hafter b hb
      simp only [decide_eq_true_eq]
      omega
  conv_rhs => rw [hsplit, filter_append, h1, h2, append_nil]

variable [DecidableEq α]

theorem length_take_filter (key : α → ℤ) {rows : List α} (h : rows.Pairwise (key · < key ·))
    {a : α} {i : ℕ}
    (ha : (a, i) ∈ rows.zipIdx) (p : α → Bool) :
    ((rows.take i).filter p).length = rank key (rows.filter p).toFinset a := by
  have hnodup : rows.Nodup := h.imp fun hlt he => by
    rw [he] at hlt
    exact lt_irrefl _ hlt
  have hset : (rows.filter p).toFinset.filter (key · < key a) =
      (rows.filter fun b => p b && decide (key b < key a)).toFinset := by
    ext b
    simp [and_assoc]
  rw [take_of_sorted key h ha, filter_filter, rank, hset, toFinset_card_of_nodup (hnodup.filter _)]

end Sorted

end AciX.Sql
