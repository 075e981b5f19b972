import AciX.Sql.Rows

/-!
# Groups and the largest of them

`SELECT name, SUM(n) GROUP BY name` has one row for each name the collation tells apart. With `ORDER
BY SUM(n) DESC` and a row count, a name is left out by some order of the rows exactly if it is
`Missable`: as many other names have no smaller sum (`missable_of_notMem_take`,
`notMem_take_lastOrder`).
-/

namespace AciX.Sql

open List

variable {α κ : Type} [DecidableEq κ] (key : α → κ)

def total (rows : List (α × ℤ)) (x : κ) : ℤ :=
  ((rows.filter fun r => key r.1 = x).map Prod.snd).sum

def groupBy (rows : List (α × ℤ)) : List (α × ℤ) :=
  (distinctOn (fun r => key r.1) rows).map fun r => (r.1, total key rows (key r.1))

def groupKeys (rows : List (α × ℤ)) : List κ := (rows.map fun r => key r.1).dedup

def rivals (rows : List (α × ℤ)) (x : κ) : List κ :=
  (groupKeys key rows).filter fun y => y ≠ x ∧ total key rows x ≤ total key rows y

def Missable (rows : List (α × ℤ)) (n : ℕ) (x : κ) : Prop := n ≤ (rivals key rows x).length

instance (rows : List (α × ℤ)) (n : ℕ) (x : κ) : Decidable (Missable key rows n x) :=
  inferInstanceAs (Decidable (_ ≤ _))

variable {key} {rows : List (α × ℤ)} {l : List (α × ℤ)} {x : κ} (count : α → ℕ)

theorem mem_groupKeys : x ∈ groupKeys key rows ↔ ∃ r ∈ rows, key r.1 = x := by
  simp [groupKeys]

theorem mem_groupBy {g : α × ℤ} (h : g ∈ groupBy key rows) :
    (∃ r ∈ rows, r.1 = g.1) ∧ g.2 = total key rows (key g.1) := by
  obtain ⟨r, hr, rfl⟩ := mem_map.1 h
  exact ⟨⟨r, mem_of_mem_distinctOn hr, rfl⟩, rfl⟩

theorem exists_mem_groupBy (h : x ∈ groupKeys key rows) : ∃ g ∈ groupBy key rows, key g.1 = x := by
  obtain ⟨r, hr, rfl⟩ := mem_groupKeys.1 h
  obtain ⟨s, hs, hk⟩ : ∃ s ∈ distinctOn (fun r : α × ℤ => key r.1) rows, key s.1 = key r.1 :=
    exists_mem_distinctOn hr
  exact ⟨_, mem_map.2 ⟨s, hs, rfl⟩, hk⟩

theorem mem_groupKeys_of_mem_groupBy {g : α × ℤ} (h : g ∈ groupBy key rows) :
    key g.1 ∈ groupKeys key rows := by
  obtain ⟨⟨r, hr, hk⟩, -⟩ := mem_groupBy h
  exact mem_groupKeys.2 ⟨r, hr, by rw [hk]⟩

theorem unique_groupBy : Unique (fun g => key g.1) (groupBy key rows) := by
  have h : Unique (fun r : α × ℤ => key r.1) (distinctOn (fun r => key r.1) rows) :=
    unique_distinctOn rows
  unfold Unique groupBy
  rw [map_map]
  exact h

theorem total_perm (h : l.Perm rows) (x : κ) : total key l x = total key rows x :=
  ((h.filter _).map _).sum_eq

theorem groupKeys_perm (h : l.Perm rows) :
    (groupKeys key l).Perm (groupKeys key rows) := (h.map _).dedup

theorem missable_perm (h : l.Perm rows) {n : ℕ} : Missable key l n x ↔ Missable key rows n x := by
  unfold Missable rivals
  simp only [total_perm h]
  rw [((groupKeys_perm h).filter _).length_eq]

theorem total_filter {p : κ → Bool} (hx : p x = true) (rows : List (α × ℤ)) :
    total key (rows.filter fun r => p (key r.1)) x = total key rows x := by
  unfold total
  rw [filter_filter]
  congr 2
  refine filter_congr fun r _ => ?_
  by_cases h : key r.1 = x
  · simp [h, hx]
  · simp [h]

theorem Missable.le_length {n : ℕ} (h : Missable key rows n x) : n ≤ rows.length := by
  have hkeys : (groupKeys key rows).length ≤ rows.length :=
    (dedup_sublist _).length_le.trans (length_map _).le
  exact h.trans ((length_filter_le _ _).trans hkeys)

theorem Missable.filter_mono {p q : κ → Bool} (hpq : ∀ y, p y = true → q y = true) {n : ℕ}
    (hx : p x = true) (h : Missable key (rows.filter fun r => p (key r.1)) n x) :
    Missable key (rows.filter fun r => q (key r.1)) n x := by
  refine le_trans h (List.Subperm.length_le (subperm_of_subset ?_ fun y hy => ?_))
  · exact (nodup_dedup _).filter _
  · simp only [rivals, mem_filter, mem_groupKeys, decide_eq_true_eq] at hy ⊢
    obtain ⟨⟨r, ⟨hr, hpr⟩, rfl⟩, hne, hle⟩ := hy
    rw [total_filter hx, total_filter hpr] at hle
    rw [total_filter (hpq _ hx), total_filter (hpq _ hpr)]
    exact ⟨⟨r, ⟨hr, hpq _ hpr⟩, rfl⟩, hne, hle⟩

section Top

variable {l : List (α × ℤ)} {n : ℕ} {x : κ}

def Descending (l : List (α × ℤ)) : Prop := l.Pairwise fun a b => b.2 ≤ a.2

section

variable (hperm : l.Perm (groupBy key rows))
include hperm

theorem length_rivals (x : κ) : (rivals key rows x).length =
      (l.filter fun g => key g.1 ≠ x ∧ total key rows x ≤ g.2).length := by
  have hkeys : (groupKeys key rows).Perm ((groupBy key rows).map fun g => key g.1) := by
    refine (perm_ext_iff_of_nodup (nodup_dedup _) unique_groupBy).2 fun y => ?_
    rw [mem_map]
    constructor
    · exact exists_mem_groupBy
    · rintro ⟨g, hg, rfl⟩
      exact mem_groupKeys_of_mem_groupBy hg
  rw [rivals, (hkeys.filter _).length_eq, filter_map, length_map, (hperm.filter _).length_eq]
  congr 1
  refine filter_congr fun g hg => ?_
  simp [(mem_groupBy hg).2]

theorem exists_mem_drop (hx : x ∈ groupKeys key rows) (hn : ∀ g ∈ l.take n, key g.1 ≠ x) :
    ∃ g ∈ l.drop n, key g.1 = x ∧ g.2 = total key rows x := by
  obtain ⟨g, hg, rfl⟩ := exists_mem_groupBy hx
  have hmem : g ∈ l.take n ++ l.drop n := by
    rw [take_append_drop]
    exact hperm.mem_iff.2 hg
  rcases mem_append.1 hmem with h | h
  · exact absurd rfl (hn g h)
  · exact ⟨g, h, rfl, (mem_groupBy hg).2⟩

theorem total_le_of_notMem_take (hl : Descending l) (hx : x ∈ groupKeys key rows)
    (hn : ∀ g ∈ l.take n, key g.1 ≠ x) {a : α × ℤ} (ha : a ∈ l.take n) :
    total key rows x ≤ a.2 := by
  obtain ⟨g, hg, -, hsum⟩ := exists_mem_drop hperm hx hn
  rw [Descending, ← take_append_drop n l] at hl
  exact hsum ▸ (pairwise_append.1 hl).2.2 a ha g hg

theorem length_take_of_notMem (hx : x ∈ groupKeys key rows)
    (hn : ∀ g ∈ l.take n, key g.1 ≠ x) : (l.take n).length = n := by
  obtain ⟨g, hg, -⟩ := exists_mem_drop hperm hx hn
  have := length_pos_of_mem hg
  rw [length_drop] at this
  rw [length_take]
  omega

theorem missable_of_notMem_take (hl : Descending l) (hx : x ∈ groupKeys key rows)
    (hn : ∀ g ∈ l.take n, key g.1 ≠ x) :
    Missable key rows n x ∧ (l.take n).length = n := by
  have hlen := length_take_of_notMem hperm hx hn
  refine ⟨?_, hlen⟩
  rw [Missable, length_rivals hperm]
  calc n = ((l.take n).filter fun a => key a.1 ≠ x ∧ total key rows x ≤ a.2).length := by
        rw [filter_eq_self.2, hlen]
        intro a ha
        simpa using ⟨hn a ha, total_le_of_notMem_take hperm hl hx hn ha⟩
    _ ≤ _ := ((take_sublist n l).filter _).length_le

end

def lastLe (key : α → κ) (x : κ) (a b : α × ℤ) : Prop :=
  b.2 < a.2 ∨ b.2 = a.2 ∧ (key a.1 = x → key b.1 = x)

instance (x : κ) : DecidableRel (lastLe key x) := fun _ _ => inferInstanceAs (Decidable (_ ∨ _))

def lastOrder (key : α → κ) (x : κ) (l : List (α × ℤ)) : List (α × ℤ) :=
  l.insertionSort (lastLe key x)

theorem pairwise_lastOrder (x : κ) (l : List (α × ℤ)) :
    (lastOrder key x l).Pairwise (lastLe key x) := by
  have htotal : Std.Total (lastLe key x) := ⟨fun a b => by
    unfold lastLe
    rcases lt_trichotomy a.2 b.2 with h | h | h
    · exact .inr (.inl h)
    · by_cases ha : key a.1 = x
      · exact .inr (.inr ⟨h, fun _ => ha⟩)
      · exact .inl (.inr ⟨h.symm, fun h => absurd h ha⟩)
    · exact .inl (.inl h)⟩
  have htrans : IsTrans (α × ℤ) (lastLe key x) := ⟨fun a b c hab hbc => by
    unfold lastLe at *
    rcases hab with hab | ⟨hab, hab'⟩
    · rcases hbc with hbc | ⟨hbc, -⟩
      · exact .inl (by omega)
      · exact .inl (by omega)
    · rcases hbc with hbc | ⟨hbc, hbc'⟩
      · exact .inl (by omega)
      · exact .inr ⟨by omega, fun h => hbc' (hab' h)⟩⟩
  exact pairwise_insertionSort _ l

theorem lastOrder_perm (x : κ) (l : List (α × ℤ)) : (lastOrder key x l).Perm l :=
  perm_insertionSort _ l

theorem descending_lastOrder (x : κ) (l : List (α × ℤ)) : Descending (lastOrder key x l) := by
  refine (pairwise_lastOrder x l).imp fun h => ?_
  rcases h with h | ⟨h, -⟩
  · exact h.le
  · exact h.le

theorem notMem_take_lastOrder (h : Missable key rows n x) {g : α × ℤ}
    (hg : g ∈ (lastOrder key x (groupBy key rows)).take n) : key g.1 ≠ x := by
  rintro rfl
  set l := lastOrder key (key g.1) (groupBy key rows) with hl
  have hperm : l.Perm (groupBy key rows) := lastOrder_perm _ _
  obtain ⟨a, b, hab⟩ := append_of_mem (mem_of_mem_take hg)
  have hgl : g ∈ groupBy key rows := hperm.mem_iff.1 (mem_of_mem_take hg)
  have hpair : l.Pairwise (lastLe key (key g.1)) := pairwise_lastOrder _ _
  rw [hab, pairwise_append, pairwise_cons] at hpair
  -- every rival stands before `g`, and fewer than `n` do
  have hrivals : (rivals key rows (key g.1)).length ≤ a.length := by
    rw [length_rivals hperm, hab, ← (mem_groupBy hgl).2, filter_append, filter_cons]
    have hb : (b.filter fun r => key r.1 ≠ key g.1 ∧ g.2 ≤ r.2) = [] := by
      rw [filter_eq_nil_iff]
      intro r hr
      rcases hpair.2.1.1 r hr with hlt | ⟨-, hx⟩
      · simp [hlt]
      · simp [hx rfl]
    rw [hb]
    simpa using length_filter_le _ a
  have ha : a.length < n := by
    by_contra hle
    have hnodup : (a ++ g :: b).Nodup := hab ▸ hperm.nodup_iff.2 unique_groupBy.nodup
    rw [hab, take_append_of_le_length (by omega)] at hg
    exact (nodup_append.1 hnodup).2.2 g (mem_of_mem_take hg) g (by simp) rfl
  have : n ≤ (rivals key rows (key g.1)).length := h
  omega

end Top

theorem length_filter_le_sum (l : List α) :
    (l.filter fun p => 0 < count p).length ≤ (l.map count).sum := by
  induction l with
  | nil => simp
  | cons p l ih =>
    rw [filter_cons, map_cons, sum_cons]
    split_ifs with hp
    · simp only [decide_eq_true_eq] at hp
      simp only [length_cons]
      omega
    · omega

theorem sum_eq_length_filter_iff (l : List α) :
    (l.map count).sum = (l.filter fun p => 0 < count p).length ↔ ∀ p ∈ l, count p ≤ 1 := by
  induction l with
  | nil => simp
  | cons p l ih =>
    have hle := length_filter_le_sum count l
    rw [filter_cons, map_cons, sum_cons, forall_mem_cons, ← ih]
    split_ifs with hp
    · simp only [decide_eq_true_eq] at hp
      simp only [length_cons]
      omega
    · simp only [decide_eq_true_eq] at hp
      omega

end AciX.Sql
