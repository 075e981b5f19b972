import AciX.Sql.Text

/-!
# Rows, nulls and joins

A comparison with `NULL` is never true, so a `WHERE` or `ON` clause reads as a `Bool`. `SELECT
@x=col` leaves `@x` at the last row it meets, and a table is a list in the order the server happens
to meet its rows in. An `IDENTITY` column numbers the rows inserted on from the greatest number in
the table.
-/

namespace AciX.Sql

open List

variable {α β γ : Type*} {rows : List α} {key : α → γ} {setID : α → ℤ → β} {on : α → β → Bool}
  {p : α → Bool} {a : α} {r : List β} {l : List α} {b : β}

def eqNull [DecidableEq α] (a b : Option α) : Bool :=
  match a, b with
  | some x, some y => x == y
  | _, _ => false

@[simp] theorem eqNull_some [DecidableEq α] (x y : α) :
    eqNull (some x) (some y) = decide (x = y) := rfl

@[simp] theorem eqNull_none_left [DecidableEq α] (b : Option α) : eqNull none b = false := by
  cases b <;> rfl

@[simp] theorem eqNull_none_right [DecidableEq α] (a : Option α) : eqNull a none = false := by
  cases a <;> rfl

theorem eqNull_iff [DecidableEq α] {a b : Option α} :
    eqNull a b = true ↔ ∃ x, a = some x ∧ b = some x := by
  rcases a with _ | x <;> rcases b with _ | y <;> simp [eq_comm]

/-- `SELECT @x=... FROM rows WHERE p`: the row the variables are left at, if any. -/
def selectLast (p : α → Bool) (rows : List α) : Option α := (rows.filter p).getLast?

theorem selectLast_mem (h : selectLast p rows = some a) : a ∈ rows ∧ p a = true := by
  have := mem_of_getLast? h
  simpa using this

theorem selectLast_none : selectLast p rows = none ↔ ∀ a ∈ rows, p a = false := by
  simp [selectLast]

theorem selectLast_isSome (ha : a ∈ rows) (hp : p a = true) : ∃ b, selectLast p rows = some b := by
  rcases h : selectLast p rows with _ | b
  · rw [selectLast_none] at h
    simp [h a ha] at hp
  · exact ⟨b, rfl⟩

theorem selectLast_map {f : α → α} (hf : ∀ a, p (f a) = p a) (rows : List α) :
    selectLast p (rows.map f) = (selectLast p rows).map f := by
  unfold selectLast
  rw [filter_map, show p ∘ f = p from funext hf, getLast?_map]

theorem selectLast_concat (p : α → Bool) (rows : List α) (a : α) :
    selectLast p (rows ++ [a]) = if p a = true then some a else selectLast p rows := by
  unfold selectLast
  rw [filter_append, filter_singleton]
  split_ifs with h
  · simp [h]
  · simp [h]

def top (key : α → ℤ) : List α → Option α
  | [] => none
  | a :: rows =>
    match top key rows with
    | none => some a
    | some b => if key b ≤ key a then some a else some b

theorem top_eq_none {key : α → ℤ} : top key rows = none ↔ rows = [] := by
  rcases rows with _ | ⟨a, rows⟩
  · simp [top]
  · simp only [top, reduceCtorEq, iff_false]
    split
    · simp
    · split_ifs <;> simp

theorem top_mem {key : α → ℤ} {a : α} :
    ∀ {rows : List α}, top key rows = some a → a ∈ rows ∧ ∀ b ∈ rows, key b ≤ key a
  | c :: rows, h => by
    simp only [top] at h
    rcases htop : top key rows with _ | d <;> simp only [htop] at h
    · cases h
      cases top_eq_none.1 htop
      simp
    · obtain ⟨hd, hmax⟩ := top_mem htop
      split_ifs at h with hle <;> cases h
      · refine ⟨mem_cons_self, fun b hb => ?_⟩
        rcases mem_cons.1 hb with rfl | hb
        · exact le_rfl
        · exact (hmax b hb).trans hle
      · refine ⟨mem_cons_of_mem _ hd, fun b hb => ?_⟩
        rcases mem_cons.1 hb with rfl | hb
        · omega
        · exact hmax b hb

def Unique (key : α → γ) (rows : List α) : Prop := (rows.map key).Nodup

instance [DecidableEq γ] (key : α → γ) (rows : List α) : Decidable (Unique key rows) :=
  inferInstanceAs (Decidable (rows.map key).Nodup)

section

variable (h : Unique key rows)
include h

theorem Unique.nodup : rows.Nodup :=
  List.Nodup.of_map _ h

theorem Unique.eq {a b : α} (ha : a ∈ rows)
    (hb : b ∈ rows) (hk : key a = key b) : a = b :=
  inj_on_of_nodup_map h ha hb hk

theorem Unique.find?_eq
    (ha : a ∈ rows) (hp : p a = true) (hk : ∀ b ∈ rows, p b = true → key b = key a) :
    rows.find? p = some a := by
  rcases hf : rows.find? p with _ | b
  · have := find?_eq_none.1 hf a ha
    exact absurd hp this
  · have hb := mem_of_find?_eq_some hf
    rw [h.eq hb ha (hk b hb (find?_some hf))]

theorem Unique.filter_eq_singleton (ha : a ∈ rows)
    (hp : ∀ b ∈ rows, p b = true ↔ key b = key a) :
    rows.filter p = [a] := by
  have hnd := h.nodup
  have hpa : p a = true := (hp a ha).2 rfl
  have hall : ∀ b ∈ rows.filter p, b = a := by
    intro b hb
    simp only [mem_filter] at hb
    exact h.eq hb.1 ha ((hp b hb.1).1 hb.2)
  have hmem : a ∈ rows.filter p := by simp [ha, hpa]
  exact (eq_replicate_of_mem hall).trans (by
    have hle : (rows.filter p).length ≤ 1 := by
      have hn := hnd.filter p
      rw [eq_replicate_of_mem hall] at hn
      simpa [nodup_replicate] using hn
    have hpos := length_pos_of_mem hmem
    rw [show (rows.filter p).length = 1 by omega]
    rfl)

theorem Unique.filter_eq_find?
    (hp : ∀ a ∈ rows, ∀ b ∈ rows, p a = true → p b = true → key a = key b) :
    rows.filter p = (rows.find? p).toList := by
  rcases hf : rows.find? p with _ | a
  · exact filter_eq_nil_iff.2 (find?_eq_none.1 hf)
  · have ha := mem_of_find?_eq_some hf
    have hpa := find?_some hf
    refine h.filter_eq_singleton ha fun b hb => ⟨fun hpb => hp b hb a ha hpb hpa, fun hk => ?_⟩
    rwa [h.eq hb ha hk]

end

def leftJoin (on : α → β → Bool) (l : List α) (r : List β) : List (α × Option β) :=
  l.flatMap fun a =>
    match r.filter (on a) with
    | [] => [(a, none)]
    | bs => bs.map fun b => (a, some b)

def join (on : α → β → Bool) (l : List α) (r : List β) : List (α × β) :=
  l.flatMap fun a => (r.filter (on a)).map fun b => (a, b)

theorem mem_leftJoin {b : Option β} (h : (a, b) ∈ leftJoin on l r) : a ∈ l := by
  simp only [leftJoin, mem_flatMap] at h
  obtain ⟨a', ha, h⟩ := h
  split at h
  · simp only [mem_singleton, Prod.mk.injEq] at h
    exact h.1 ▸ ha
  · simp only [mem_map, Prod.mk.injEq] at h
    obtain ⟨_, -, rfl, -⟩ := h
    exact ha

theorem on_of_mem_leftJoin (h : (a, some b) ∈ leftJoin on l r) : on a b = true := by
  simp only [leftJoin, mem_flatMap] at h
  obtain ⟨a', -, h⟩ := h
  split at h
  · simp at h
  · obtain ⟨b', hb', heq⟩ := mem_map.1 h
    simp only [Prod.mk.injEq, Option.some.injEq] at heq
    obtain ⟨rfl, rfl⟩ := heq
    exact (mem_filter.1 hb').2

theorem on_of_none_mem_leftJoin
    (h : (a, none) ∈ leftJoin on l r) (hb : b ∈ r) : on a b = false := by
  simp only [leftJoin, mem_flatMap] at h
  obtain ⟨a', -, h⟩ := h
  split at h
  · rename_i hf
    simp only [mem_singleton, Prod.mk.injEq] at h
    rw [h.1]
    simpa using filter_eq_nil_iff.1 hf b hb
  · simp at h

theorem some_mem_leftJoin
    (ha : a ∈ l) (hb : b ∈ r) (hon : on a b = true) : (a, some b) ∈ leftJoin on l r := by
  have hm : b ∈ r.filter (on a) := mem_filter.2 ⟨hb, hon⟩
  simp only [leftJoin, mem_flatMap]
  refine ⟨a, ha, ?_⟩
  split
  · rename_i h
    simp [h] at hm
  · exact mem_map.2 ⟨b, hm, rfl⟩

theorem leftJoin_unique {key : β → γ}
    (h : Unique key r) (hon : ∀ b ∈ r, ∀ c ∈ r, on a b = true → on a c = true → key b = key c) :
    leftJoin on [a] r = [(a, r.find? (on a))] := by
  simp only [leftJoin, h.filter_eq_find? hon, flatMap_cons, flatMap_nil, append_nil]
  cases r.find? (on a) <;> rfl

theorem mem_join : (a, b) ∈ join on l r ↔ a ∈ l ∧ b ∈ r ∧ on a b = true := by
  simp [join]

theorem map_fst_join {key : β → γ} (on : α → β → Bool) (h : Unique key r)
    (hon : ∀ a, ∀ b ∈ r, ∀ c ∈ r, on a b = true → on a c = true → key b = key c) (l : List α) :
    (join on l r).map Prod.fst = l.filter fun a => r.any (on a) := by
  induction l with
  | nil => rfl
  | cons a l ih =>
    have hjoin : join on (a :: l) r = ((r.find? (on a)).toList.map fun b => (a, b))
      ++ join on l r := by
      rw [← h.filter_eq_find? (hon a)]
      rfl
    rw [hjoin, map_append, ih, filter_cons]
    rcases hf : r.find? (on a) with _ | b
    · have hany : r.any (on a) = false := by
        simpa using hf
      simp [hany]
    · have hany : r.any (on a) = true := any_eq_true.2 ⟨b, mem_of_find?_eq_some hf, find?_some hf⟩
      simp [hany]

theorem length_filter_join (on : α → β → Bool) (p : α → Bool) (l : List α) (r : List β) :
    ((join on l r).filter fun j => p j.1).length =
      ((l.filter p).map fun a => (r.filter (on a)).length).sum := by
  induction l with
  | nil => rfl
  | cons a l ih =>
    have hjoin : join on (a :: l) r = ((r.filter (on a)).map fun b => (a, b)) ++ join on l r := rfl
    rw [hjoin, filter_append, length_append, ih, filter_map, length_map, filter_cons]
    by_cases hp : p a = true
    · have hall : (fun j : α × β => p j.1) ∘ (fun b => (a, b)) = fun _ => true := by
        funext b
        simp [hp]
      simp [hp, hall]
    · have hnone : (fun j : α × β => p j.1) ∘ (fun b => (a, b)) = fun _ => false := by
        funext b
        simp [hp]
      simp [hp, hnone]

section Distinct

variable [DecidableEq γ] {key : α → γ}

/-- `SELECT DISTINCT`, where `key` is what the server compares: the first row of each. -/
def distinctOn (key : α → γ) : List α → List α
  | [] => []
  | a :: rows => a :: (distinctOn key rows).filter fun b => key b ≠ key a

theorem mem_of_mem_distinctOn {a : α} : ∀ {rows : List α}, a ∈ distinctOn key rows → a ∈ rows
  | [], h => h
  | b :: rows, h => by
    simp only [distinctOn, mem_cons, mem_filter] at h ⊢
    exact h.imp_right fun h => mem_of_mem_distinctOn h.1

theorem exists_mem_distinctOn {a : α} :
    ∀ {rows : List α}, a ∈ rows → ∃ b ∈ distinctOn key rows, key b = key a
  | b :: rows, h => by
    by_cases hb : key a = key b
    · exact ⟨b, by simp [distinctOn], hb.symm⟩
    rcases mem_cons.1 h with rfl | h
    · exact absurd rfl hb
    · obtain ⟨c, hc, hk⟩ := exists_mem_distinctOn h
      exact ⟨c, by simp [distinctOn, hc, hk, hb], hk⟩

theorem unique_distinctOn : ∀ rows : List α, Unique key (distinctOn key rows)
  | [] => nodup_nil
  | a :: rows => by
    have hsub : ((distinctOn key rows).filter fun b => key b ≠ key a).Sublist
        (distinctOn key rows) := filter_sublist
    unfold Unique
    simp only [distinctOn, map_cons, nodup_cons]
    refine ⟨fun h => ?_, (unique_distinctOn rows).sublist (hsub.map key)⟩
    obtain ⟨b, hb, hk⟩ := mem_map.1 h
    simp [hk] at hb

theorem distinctOn_of_unique : ∀ {rows : List α}, Unique key rows → distinctOn key rows = rows
  | [], _ => rfl
  | a :: rows, h => by
    unfold Unique at h
    simp only [map_cons, nodup_cons] at h
    rw [distinctOn, distinctOn_of_unique h.2, filter_eq_self.2]
    intro b hb
    simp only [decide_eq_true_eq]
    exact fun hk => h.1 (hk ▸ mem_map_of_mem hb)

theorem distinctOn_of_forall_eq {a : α} {rows : List α} (hne : rows ≠ []) (h : ∀ b ∈ rows, b = a) :
    distinctOn key rows = [a] := by
  rcases rows with _ | ⟨b, rows⟩
  · exact absurd rfl hne
  · obtain rfl := h b (by simp)
    rw [distinctOn, filter_eq_nil_iff.2]
    intro c hc
    simp [h c (by simp [mem_of_mem_distinctOn hc])]

theorem filter_distinctOn {p : α → Bool} (hp : ∀ a b, key a = key b → p a = p b) :
    ∀ rows : List α, (distinctOn key rows).filter p = distinctOn key (rows.filter p)
  | [] => rfl
  | a :: rows => by
    have ih := filter_distinctOn hp rows
    rw [distinctOn, filter_cons, filter_cons]
    split_ifs with ha
    · rw [distinctOn, filter_comm, ih]
    · rw [filter_filter, ← ih]
      refine filter_congr fun b _ => ?_
      by_cases hk : key b = key a
      · simp [hp b a hk, ha]
      · simp [hk]

theorem distinctOn_congr {δ : Type*} [DecidableEq δ] {key' : α → δ} :
    ∀ {rows : List α}, (∀ a ∈ rows, ∀ b ∈ rows, key a = key b ↔ key' a = key' b) →
      distinctOn key rows = distinctOn key' rows
  | [], _ => rfl
  | a :: rows, h => by
    have ih : distinctOn key rows = distinctOn key' rows := distinctOn_congr fun b hb c hc =>
      h b (mem_cons_of_mem a hb) c (mem_cons_of_mem a hc)
    rw [distinctOn, distinctOn, ih]
    refine congrArg (a :: ·) (filter_congr fun b hb => ?_)
    have hb := mem_cons_of_mem a (mem_of_mem_distinctOn hb)
    simp only [ne_eq, h b hb a mem_cons_self]

end Distinct

/-- The greatest of the numbers in a column, or `b` if that is greater. -/
def maxFrom (b : ℤ) (ids : List ℤ) : ℤ := ids.foldr max b

theorem base_le_maxFrom (b : ℤ) : ∀ ids : List ℤ, b ≤ maxFrom b ids
  | [] => le_rfl
  | _ :: ids => (base_le_maxFrom b ids).trans (le_max_right _ _)

theorem le_maxFrom {b i : ℤ} : ∀ {ids : List ℤ}, i ∈ ids → i ≤ maxFrom b ids
  | j :: ids, h => by
    rcases mem_cons.1 h with rfl | h
    · exact le_max_left _ _
    · exact (le_maxFrom h).trans (le_max_right _ _)

theorem maxFrom_mem (b : ℤ) : ∀ ids : List ℤ, maxFrom b ids = b ∨ maxFrom b ids ∈ ids
  | [] => .inl rfl
  | i :: ids => by
    have hcons : maxFrom b (i :: ids) = max i (maxFrom b ids) := rfl
    rcases max_choice i (maxFrom b ids) with h | h
    · exact .inr (by rw [hcons, h]; exact mem_cons_self)
    · rcases maxFrom_mem b ids with hb | hmem
      · exact .inl (by rw [hcons, h, hb])
      · exact .inr (by rw [hcons, h]; exact mem_cons_of_mem i hmem)

theorem lt_maxFrom_filter {b i : ℤ} {ids : List ℤ} (h : i ∈ ids) :
    i < 1 + maxFrom b (ids.filter (b ≤ ·)) := by
  by_cases hi : b ≤ i
  · have hmem : i ∈ ids.filter (b ≤ ·) := mem_filter.2 ⟨h, decide_eq_true hi⟩
    have := le_maxFrom (b := b) hmem
    omega
  · have := base_le_maxFrom b (ids.filter (b ≤ ·))
    omega

def identity (setID : α → ℤ → β) (next : ℤ) : List α → List β
  | [] => []
  | a :: rows => setID a next :: identity setID (next + 1) rows

theorem map_identity {f : β → γ} {g : α → γ} (h : ∀ a i, f (setID a i) = g a) :
    ∀ {next : ℤ} {rows : List α}, (identity setID next rows).map f = rows.map g
  | _, [] => rfl
  | next, a :: rows => by
    rw [identity, map_cons, map_cons, h, map_identity h]

theorem mem_identity : ∀ {next : ℤ} {rows : List α}, b ∈ identity setID next rows →
      ∃ a ∈ rows, ∃ i, next ≤ i ∧ b = setID a i
  | next, a :: rows, h => by
    rcases mem_cons.1 h with rfl | h
    · exact ⟨a, by simp, next, le_rfl, rfl⟩
    · obtain ⟨a', ha, i, hi, rfl⟩ := mem_identity h
      exact ⟨a', by simp [ha], i, by omega, rfl⟩

theorem exists_mem_identity :
    ∀ {next : ℤ} {rows : List α}, a ∈ rows → ∃ i, setID a i ∈ identity setID next rows
  | next, b :: rows, h => by
    rcases mem_cons.1 h with rfl | h
    · exact ⟨next, mem_cons_self⟩
    · obtain ⟨i, hi⟩ := exists_mem_identity h
      exact ⟨i, mem_cons_of_mem _ hi⟩

theorem length_filter_identity {p : β → Bool} {q : α → Bool} (h : ∀ a i, p (setID a i) = q a) :
    ∀ {next : ℤ} {rows : List α},
      ((identity setID next rows).filter p).length = (rows.filter q).length
  | _, [] => rfl
  | next, a :: rows => by
    rw [identity, filter_cons, filter_cons, h]
    split_ifs
    · rw [length_cons, length_cons, length_filter_identity h]
    · exact length_filter_identity h

theorem forall₂_identity {δ : Type*} {R : δ → α → Prop} {S : δ → β → Prop}
    (h : ∀ d a i, R d a → S d (setID a i)) {ds : List δ}
    (hr : List.Forall₂ R ds rows) (next : ℤ) : List.Forall₂ S ds (identity setID next rows) := by
  induction hr generalizing next with
  | nil => exact .nil
  | cons hd _ ih => exact .cons (h _ _ _ hd) (ih (next + 1))

theorem unique_identity {id : β → ℤ} (h : ∀ a i, id (setID a i) = i) :
    ∀ (next : ℤ) (rows : List α), Unique id (identity setID next rows)
  | _, [] => nodup_nil
  | next, a :: rows => by
    unfold Unique
    rw [identity, map_cons, nodup_cons, h]
    refine ⟨fun hm => ?_, unique_identity h (next + 1) rows⟩
    obtain ⟨b, hb, hi⟩ := mem_map.1 hm
    obtain ⟨a', -, i, hle, rfl⟩ := mem_identity hb
    rw [h] at hi
    omega

theorem Unique.append {l r : List α} (hl : Unique key l) (hr : Unique key r)
    (h : ∀ a ∈ l, ∀ b ∈ r, key a ≠ key b) : Unique key (l ++ r) := by
  unfold Unique
  rw [map_append, nodup_append]
  refine ⟨hl, hr, fun x hx y hy => ?_⟩
  obtain ⟨a, ha, rfl⟩ := mem_map.1 hx
  obtain ⟨b, hb, rfl⟩ := mem_map.1 hy
  exact h a ha b hb

section

variable (h : Unique key rows)
include h

theorem Unique.filter (p : α → Bool) : Unique key (rows.filter p) :=
  List.Nodup.sublist (filter_sublist.map key) h

theorem Unique.map {f : α → α}
    (hf : ∀ a, key (f a) = key a) : Unique key (rows.map f) := by
  unfold Unique
  rw [map_map, show key ∘ f = key from funext hf]
  exact h

theorem Unique.of_key {δ : Type*} {key' : α → δ} (hk : ∀ a b, key' a = key' b → key a = key b) :
    Unique key' rows := by
  refine (nodup_map_iff_inj_on h.nodup).2 fun a ha b hb he => ?_
  exact h.eq ha hb (hk a b he)

theorem Unique.pairwise : rows.Pairwise fun a b => key a ≠ key b :=
  pairwise_map.1 h

end

theorem Unique.flatMap {f : β → List α} {l : List β} (hf : ∀ b ∈ l, Unique key (f b))
    (hdisj : l.Pairwise fun b c => ∀ x ∈ f b, ∀ y ∈ f c, key x ≠ key y) :
    Unique key (l.flatMap f) := by
  unfold Unique at hf ⊢
  rw [map_flatMap, nodup_flatMap]
  refine ⟨hf, hdisj.imp fun h => ?_⟩
  intro k hk hk'
  obtain ⟨x, hx, rfl⟩ := mem_map.1 hk
  obtain ⟨y, hy, he⟩ := mem_map.1 hk'
  exact h x hx y hy he.symm

theorem Unique.filterMap {key' : β → γ} {f : α → Option β}
    (hf : ∀ a b, f a = some b → key' b = key a) (h : Unique key l) :
    Unique key' (l.filterMap f) := by
  have hsub : ∀ l : List α, ((l.filterMap f).map key').Sublist (l.map key) := by
    intro l
    induction l with
    | nil => exact .slnil
    | cons a l ih =>
      rcases ha : f a with _ | b
      · rw [filterMap_cons_none ha]
        exact ih.cons _
      · rw [filterMap_cons_some ha, map_cons, map_cons, hf a b ha]
        exact ih.cons_cons _
  exact List.Nodup.sublist (hsub l) h

end AciX.Sql
