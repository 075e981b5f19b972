import AciX.Sql.Rows

/-!
# Updates from a join

`UPDATE t SET ... FROM t JOIN s ON ...` writes each row of `t` that joins some row of `s` once. If
it joins several, the server uses one of them; which one, is not determined. The parameter `pick`
says which one for each row of `t`, so what holds for every `pick` holds whatever the server does.
-/

namespace AciX.Sql

open List

variable {α β : Type*}

def updateFrom (pick : ℕ → ℕ) (on : α → β → Bool) (set : α → β → α) (src : List β)
    (rows : List α) : List α :=
  rows.zipIdx.map fun (r, i) =>
    match (src.filter (on r))[pick i % (src.filter (on r)).length]? with
    | some s => set r s
    | none => r

variable {pick : ℕ → ℕ} {on : α → β → Bool} {set : α → β → α} {src : List β} {rows : List α}

theorem forall₂_zipIdx_map {γ : Type*} {R : α → γ → Prop} {f : α × ℕ → γ}
    (h : ∀ p ∈ rows.zipIdx, R p.1 (f p)) : List.Forall₂ R rows (rows.zipIdx.map f) := by
  have hrows : List.Forall₂ R (rows.zipIdx.map Prod.fst) (rows.zipIdx.map f) := by
    rw [List.forall₂_map_left_iff, List.forall₂_map_right_iff, List.forall₂_same]
    exact h
  rwa [zipIdx_map_fst] at hrows

theorem exists_of_forall₂ {γ : Type*} {R : α → γ → Prop} {l : List α} {l' : List γ}
    (h : List.Forall₂ R l l') {b : γ} (hb : b ∈ l') : ∃ a ∈ l, R a b := by
  induction h with
  | nil => cases hb
  | @cons a b' l l' hab _ ih =>
    rcases mem_cons.1 hb with rfl | hb
    · exact ⟨a, mem_cons_self, hab⟩
    · obtain ⟨a', ha', hr⟩ := ih hb
      exact ⟨a', mem_cons_of_mem _ ha', hr⟩

def Updates (on : α → β → Bool) (set : α → β → α) (src : List β) (r r' : α) : Prop :=
  (∃ s ∈ src, on r s = true ∧ r' = set r s) ∨ ((∀ s ∈ src, on r s = false) ∧ r' = r)

theorem updates_updateFrom :
    List.Forall₂ (Updates on set src) rows (updateFrom pick on set src rows) := by
  refine forall₂_zipIdx_map fun p _ => ?_
  obtain ⟨r, i⟩ := p
  simp only
  split
  · rename_i s hs
    obtain ⟨hmem, hon⟩ := mem_filter.1 (mem_of_getElem? hs)
    exact .inl ⟨s, hmem, hon, rfl⟩
  · rename_i hnone
    refine .inr ⟨fun s hs => ?_, rfl⟩
    by_contra hon
    rw [Bool.not_eq_false] at hon
    have hlen := length_pos_of_mem (mem_filter.2 ⟨hs, hon⟩)
    rw [List.getElem?_eq_none_iff] at hnone
    have := Nat.mod_lt (pick i) hlen
    omega

theorem map_eq_of_forall₂ {γ δ : Type*} {f : α → δ} {g : γ → δ} {l : List α} {l' : List γ}
    (h : List.Forall₂ (fun a b => f a = g b) l l') : l.map f = l'.map g := by
  rwa [← List.forall₂_eq_eq_eq, List.forall₂_map_left_iff, List.forall₂_map_right_iff]

theorem map_updateFrom {γ : Type*} {f : α → γ} (hf : ∀ r s, f (set r s) = f r) :
    (updateFrom pick on set src rows).map f = rows.map f := by
  refine (map_eq_of_forall₂ (updates_updateFrom.imp fun r r' h => ?_)).symm
  rcases h with ⟨s, -, -, rfl⟩ | ⟨-, rfl⟩
  · exact (hf r s).symm
  · rfl

def updateRow (on : α → β → Bool) (set : α → β → α) (src : List β) (r : α) : α :=
  match src.find? (on r) with
  | some s => set r s
  | none => r

theorem updateRow_of_mem {r : α} {s : β} (hs : s ∈ src) (hon : on r s = true)
    (h : ∀ t ∈ src, on r t = true → set r t = set r s) : updateRow on set src r = set r s := by
  unfold updateRow
  split
  · rename_i t ht
    exact h t (mem_of_find?_eq_some ht) (find?_some ht)
  · rename_i hnone
    exact absurd hon (find?_eq_none.1 hnone s hs)

theorem updateRow_of_forall {r : α} (h : ∀ s ∈ src, on r s = false) :
    updateRow on set src r = r := by
  unfold updateRow
  rw [find?_eq_none.2 fun s hs => by simp [h s hs]]

theorem apply_updateRow {γ : Type*} (f : α → γ) (hf : ∀ r s, f (set r s) = f r) (r : α) :
    f (updateRow on set src r) = f r := by
  unfold updateRow
  split
  · exact hf r _
  · rfl

theorem updateRow_eq_ite {r : α} {s : β} (hs : s ∈ src) (h : ∀ t ∈ src, on r t = true → t = s) :
    updateRow on set src r = if on r s then set r s else r := by
  split_ifs with hon
  · exact updateRow_of_mem hs hon fun t ht hont => by rw [h t ht hont]
  · refine updateRow_of_forall fun t ht => ?_
    by_contra hont
    rw [Bool.not_eq_false] at hont
    exact hon (h t ht hont ▸ hont)

theorem updateFrom_eq_map (h : ∀ r ∈ rows, ∀ s ∈ src, ∀ t ∈ src, on r s = true → on r t = true →
    set r s = set r t) :
    updateFrom pick on set src rows = rows.map (updateRow on set src) := by
  have hupdates : List.Forall₂ (Updates on set src) rows (updateFrom pick on set src rows) :=
    updates_updateFrom
  have hmem := (List.forall₂_and_left rows _).2 ⟨fun r hr => hr, hupdates⟩
  have hmap := map_eq_of_forall₂ (f := updateRow on set src) (g := id) (hmem.imp fun r r' hr => ?_)
  · rw [hmap, map_id]
  · rcases hr.2 with ⟨s, hs, hon, rfl⟩ | ⟨hnone, rfl⟩
    · exact updateRow_of_mem hs hon fun t ht hont => h r hr.1 t ht s hs hont hon
    · exact updateRow_of_forall hnone

theorem exists_pick (on : α → β → Bool) (set : α → β → α) (src : List β) (rows : List α) (f : α → β)
    (hf : ∀ r ∈ rows, (∃ s ∈ src, on r s = true) → f r ∈ src ∧ on r (f r) = true) :
    ∃ pick, updateFrom pick on set src rows =
      rows.map fun r => if src.any (on r) then set r (f r) else r := by
  have hpick : ∀ i : ℕ, ∃ n : ℕ, ∀ r, rows[i]? = some r → (∃ s ∈ src, on r s = true) →
      (src.filter (on r))[n % (src.filter (on r)).length]? = some (f r) := by
    intro i
    rcases hr : rows[i]? with _ | r
    · exact ⟨0, fun _ h => by cases h⟩
    by_cases hex : ∃ s ∈ src, on r s = true
    · obtain ⟨hmem, hon⟩ := hf r (mem_of_getElem? hr) hex
      obtain ⟨n, hn, heq⟩ := getElem_of_mem (mem_filter.2 ⟨hmem, hon⟩)
      refine ⟨n, fun r' hr' _ => ?_⟩
      cases hr'
      rw [Nat.mod_eq_of_lt hn, getElem?_eq_getElem hn, heq]
    · refine ⟨0, fun r' hr' hex' => ?_⟩
      cases hr'
      exact absurd hex' hex
  choose pick hpick using hpick
  refine ⟨pick, ?_⟩
  have hrows : rows.map (fun r => if src.any (on r) then set r (f r) else r) =
      rows.zipIdx.map ((fun r => if src.any (on r) then set r (f r) else r) ∘ Prod.fst) := by
    rw [← map_map, zipIdx_map_fst]
  rw [hrows]
  refine map_congr_left fun p hp => ?_
  obtain ⟨r, i⟩ := p
  have hr := mem_zipIdx_iff_getElem?.1 hp
  simp only [Function.comp_apply]
  split_ifs with hany
  · rw [hpick i r hr (any_eq_true.1 hany)]
  · have hnil : src.filter (on r) = [] := by
      refine filter_eq_nil_iff.2 fun s hs hon => hany ?_
      exact any_eq_true.2 ⟨s, hs, hon⟩
    rw [hnil]
    rfl

theorem exists_pick_row (on : α → β → Bool) (set : α → β → α) (rows : List α) {s : β} (hs : s ∈ src)
    :
    ∃ pick f, updateFrom pick on set src rows = rows.map f ∧
      ∀ r, (on r s = true → f r = set r s) ∧ Updates on set src r (f r) := by
  have hchoice : ∀ r, ∃ t, (on r s = true → t = s) ∧
      ((∃ t ∈ src, on r t = true) → t ∈ src ∧ on r t = true) := by
    intro r
    by_cases hon : on r s = true
    · exact ⟨s, fun _ => rfl, fun _ => ⟨hs, hon⟩⟩
    by_cases hex : ∃ t ∈ src, on r t = true
    · obtain ⟨t, ht⟩ := hex
      exact ⟨t, fun h => absurd h hon, fun _ => ht⟩
    · exact ⟨s, fun _ => rfl, fun h => absurd h hex⟩
  choose choice hchoice using hchoice
  obtain ⟨pick, hpick⟩ := exists_pick on set src rows choice fun r _ hex => (hchoice r).2 hex
  refine ⟨pick, _, hpick, fun r => ⟨fun hon => ?_, ?_⟩⟩
  · rw [if_pos (any_eq_true.2 ⟨s, hs, hon⟩), (hchoice r).1 hon]
  · split_ifs with hany
    · obtain ⟨ht, hon⟩ := (hchoice r).2 (any_eq_true.1 hany)
      exact .inl ⟨_, ht, hon, rfl⟩
    · refine .inr ⟨fun t ht => ?_, rfl⟩
      by_contra hon
      rw [Bool.not_eq_false] at hon
      exact hany (any_eq_true.2 ⟨t, ht, hon⟩)

theorem filter_eq_of_forall₂ {p : α → Bool} {rows rows' : List α}
    (h : List.Forall₂ (fun r r' => p r' = p r ∧ (p r = true → r' = r)) rows rows') :
    rows'.filter p = rows.filter p := by
  induction h with
  | nil => rfl
  | cons hr _ ih =>
    obtain ⟨hp, hsame⟩ := hr
    rw [filter_cons, filter_cons, hp, ih]
    split_ifs with hpr
    · rw [hsame hpr]
    · rfl

theorem filter_updates {rows' : List α} {p : α → Bool}
    (h : List.Forall₂ (Updates on set src) rows rows')
    (hp : ∀ r ∈ rows, ∀ s ∈ src, on r s = true → p r = false ∧ p (set r s) = false) :
    rows'.filter p = rows.filter p := by
  have hmem := (List.forall₂_and_left rows rows').2 ⟨fun r hr => hr, h⟩
  refine filter_eq_of_forall₂ (hmem.imp fun r r' hr => ?_)
  rcases hr.2 with ⟨s, hs, hon, rfl⟩ | ⟨-, rfl⟩
  · obtain ⟨hpr, hps⟩ := hp r hr.1 s hs hon
    refine ⟨hps.trans hpr.symm, fun hc => ?_⟩
    rw [hpr] at hc
    cases hc
  · exact ⟨rfl, fun _ => rfl⟩

end AciX.Sql
