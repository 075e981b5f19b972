import AciX.Cache.Entity
import AciX.Run

/-!
# Many lookups at once

`Get(keys)` drops repeated keys, asks the cache for fifty keys at a time and the database for a
hundred. If the database returns the rows of distinct keys, each once and in any order, it answers
and leaves the cache as lookups of the distinct keys one after the other do (`getMany_refines`).
-/

namespace AciX.EntityCache

open List

variable {κ ε : Type*} [DecidableEq κ] (C : EntityCache κ ε)

def getEach (force : Bool) : List κ → Store κ ε → Store κ ε × List ε
  | [], s => (s, [])
  | k :: ks, s =>
    ((getEach force ks (C.get force k s).1).1,
      (C.get force k s).2.toList ++ (getEach force ks (C.get force k s).1).2)

omit [DecidableEq κ] in
/-- The cache reads the table `fetch`: the rows of distinct keys, in any order, and each under its
own key. -/
structure ReadsRows (fetch : κ → Option ε) : Prop where
  rows : ∀ ks : List κ, ks.Nodup → (C.getFromDB ks).Perm (ks.filterMap fetch)
  key : ∀ k e, fetch k = some e → C.getKey e = k

def entryOf : Option ε → Entry ε
  | some e => .entity e
  | none => .notInDB

/-- The store with the entries of `keys` that are missing, or of all of them, read again. -/
def refreshed (fetch : κ → Option ε) (force : Bool) (keys : List κ) (s : Store κ ε) : Store κ ε :=
  fun k => if k ∈ keys ∧ (force = true ∨ s k = none) then some (entryOf (fetch k)) else s k

variable {C} {fetch : κ → Option ε} {s : Store κ ε}

omit [DecidableEq κ] in
theorem ReadsRows.reads (h : C.ReadsRows fetch) : C.Reads fetch where
  mem ks e hn := by
    rw [(h.rows ks hn).mem_iff, mem_filterMap]
  key := h.key

theorem get_eq_of_head {k : κ} (hdb : (C.getFromDB [k]).head? = fetch k) (force : Bool)
    (s : Store κ ε) :
    C.get force k s = (refreshed fetch force [k] s, answer fetch force s k) := by
  refine Prod.ext ?_ (get_spec_of_head hdb force).1
  funext k'
  have hread : (if force then EntityCache.remove s k else s) k = if force then none else s k := by
    cases force <;> simp
  have hother : k' ≠ k → (if force then EntityCache.remove s k else s) k' = s k' := by
    intro hne
    cases force
    · rfl
    · exact remove_of_ne hne
  simp only [get, refreshed, mem_singleton]
  generalize (if force then EntityCache.remove s k else s) = s' at hread hother ⊢
  by_cases hk : k' = k
  · subst hk
    rcases hs : s' k' with _ | ⟨e⟩ | _
    · have hmiss : force = true ∨ s k' = none := by
        cases force
        · exact .inr (by simpa [hs] using hread.symm)
        · exact .inl rfl
      rw [if_pos ⟨rfl, hmiss⟩, ← hdb]
      rcases C.getFromDB [k'] with _ | ⟨e, es⟩
      · exact put_self s' k' _
      · exact put_self s' k' _
    all_goals
      cases force
      · have hsk : s k' = s' k' := by simpa using hread.symm
        simp [hsk, hs]
      · simp [hs] at hread
  · rw [if_neg fun h => hk h.1, ← hother hk]
    rcases hs : s' k with _ | ⟨e⟩ | _
    · rcases C.getFromDB [k] with _ | ⟨e, es⟩
      · exact put_of_ne hk
      · exact put_of_ne hk
    · rfl
    · rfl

theorem get_eq (h : C.Reads fetch) (force : Bool) (k : κ) (s : Store κ ε) :
    C.get force k s = (refreshed fetch force [k] s, answer fetch force s k) :=
  get_eq_of_head (h.getFromDB_singleton k) force s

theorem get_of_entry {k : κ} {v : Entry ε} (h : s k = some v) :
    C.get false k s = (s, cached s k) := by
  simp only [get, cached, h, Bool.false_eq_true, if_false]
  cases v <;> rfl

theorem refreshed_nil {force : Bool} : refreshed fetch force [] s = s := by
  funext k
  simp [refreshed]

theorem refreshed_cons {k : κ} {ks : List κ} (hk : k ∉ ks) (force : Bool) :
    refreshed fetch force ks (refreshed fetch force [k] s) = refreshed fetch force (k :: ks) s := by
  funext k'
  by_cases hkk : k' = k
  · subst hkk
    simp [refreshed, hk]
  · simp [refreshed, hkk]

theorem answer_refreshed {k k' : κ} (hk : k' ≠ k) (force : Bool) :
    answer fetch force (refreshed fetch force [k] s) k' = answer fetch force s k' := by
  have hother : refreshed fetch force [k] s k' = s k' := by simp [refreshed, hk]
  simp only [answer, cached, hother]

theorem getEach_eq (h : C.ReadsRows fetch) (force : Bool) : ∀ {ks : List κ} {s : Store κ ε},
    ks.Nodup → C.getEach force ks s =
      (refreshed fetch force ks s, ks.filterMap (answer fetch force s))
  | [], s, _ => by simp [getEach, refreshed_nil]
  | k :: ks, s, hn => by
    obtain ⟨hk, hn⟩ := nodup_cons.1 hn
    have hrest : ks.filterMap (answer fetch force (refreshed fetch force [k] s)) =
        ks.filterMap (answer fetch force s) :=
      filterMap_congr fun k' hk' => answer_refreshed (ne_of_mem_of_not_mem hk' hk) force
    simp only [getEach, get_eq h.reads, getEach_eq h force hn, hrest, refreshed_cons hk,
      filterMap_cons]
    cases answer fetch force s k <;> rfl

section Many

omit [DecidableEq κ] in
theorem getFromDBInBlocks_perm (h : C.ReadsRows fetch) {keys : List κ} (hn : keys.Nodup) :
    (C.getFromDBInBlocks keys).Perm (keys.filterMap fetch) := by
  unfold getFromDBInBlocks
  split_ifs
  · exact h.rows keys hn
  · have hblocks : ∀ b ∈ blocks 100 keys, (C.getFromDB b).Perm (b.filterMap fetch) :=
      fun b hb => h.rows b (hn.sublist (mem_blocksFrom hb).1)
    have hflat : (blocks 100 keys).flatMap (List.filterMap fetch) = keys.filterMap fetch := by
      conv_rhs => rw [← blocks_flatten (n := 100) (by norm_num) keys]
      rw [filterMap_flatten, flatMap_def]
    rw [← hflat]
    exact List.Perm.flatMap_left _ hblocks

theorem putFetched_of_mem {k : κ} {e : ε} : ∀ {es : List ε} {s : Store κ ε}, e ∈ es →
    (∀ e' ∈ es, C.getKey e' = k → e' = e) → C.getKey e = k → C.putFetched s es k = some (.entity e)
  | e' :: es, s, he, hes, hk => by
    show C.putFetched (EntityCache.put s (C.getKey e') (.entity e')) es k = _
    by_cases hmem : e ∈ es
    · exact putFetched_of_mem hmem (fun e'' he'' => hes e'' (mem_cons_of_mem e' he'')) hk
    · obtain rfl : e = e' := (mem_cons.1 he).resolve_right hmem
      rw [putFetched_of_ne, hk, put_self]
      intro e'' he'' hk''
      exact hmem (hes e'' (mem_cons_of_mem e he'') hk'' ▸ he'')

theorem markMissing_apply {k : κ} {d : κ → Option ε} : ∀ {ks : List κ} {s : Store κ ε},
    markMissing s d ks k = if k ∈ ks ∧ d k = none then some .notInDB else s k
  | [], s => by simp [markMissing]
  | k' :: ks, s => by
    have ih : ∀ s', markMissing s' d ks k = if k ∈ ks ∧ d k = none then some .notInDB else s' k :=
      fun _ => markMissing_apply
    simp only [markMissing, foldl_cons] at ih ⊢
    rw [ih]
    by_cases hk : k = k'
    · subst hk
      by_cases hd : d k = none <;> by_cases hmem : k ∈ ks <;> simp [hd, hmem]
    · by_cases hd : (d k').isNone = true <;> simp [hk, hd, put_of_ne hk]

theorem putBack_apply (h : C.ReadsRows fetch) {needed : List κ} {es : List ε}
    (hes : es.Perm (needed.filterMap fetch)) {d : κ → Option ε} (hd : ∀ k ∈ needed, d k = fetch k)
    (s : Store κ ε) (k : κ) :
    (if es.length ≠ needed.length then markMissing (C.putFetched s es) d needed
      else C.putFetched s es) k = if k ∈ needed then some (entryOf (fetch k)) else s k := by
  have hmem : ∀ e, e ∈ es ↔ ∃ k ∈ needed, fetch k = some e := by
    intro e
    rw [hes.mem_iff, mem_filterMap]
  have hfound : ∀ {e}, k ∈ needed → fetch k = some e → C.putFetched s es k = some (.entity e) := by
    intro e hk hf
    refine putFetched_of_mem ((hmem e).2 ⟨k, hk, hf⟩) (fun e' he' hk' => ?_) (h.key k e hf)
    obtain ⟨k'', -, hf''⟩ := (hmem e').1 he'
    rw [h.key k'' e' hf''] at hk'
    rw [hk', hf] at hf''
    exact (Option.some.inj hf'').symm
  have hother : (k ∈ needed → fetch k = none) → C.putFetched s es k = s k := by
    intro hk
    refine putFetched_of_ne fun e he heq => ?_
    obtain ⟨k', hk', hf'⟩ := (hmem e).1 he
    rw [h.key k' e hf'] at heq
    rw [heq] at hk' hf'
    rw [hk hk'] at hf'
    cases hf'
  by_cases hk : k ∈ needed
  · rw [if_pos hk]
    rcases hf : fetch k with _ | e
    · have hlen : es.length ≠ needed.length := by
        rw [hes.length_eq]
        intro hlen
        have := (filterMap_length_eq_length.1 hlen) k hk
        simp [hf] at this
      rw [if_pos hlen, markMissing_apply, if_pos ⟨hk, (hd k hk).trans hf⟩]
      rfl
    · have hsome : d k ≠ none := by simp [hd k hk, hf]
      split_ifs
      · rw [markMissing_apply, if_neg fun h => hsome h.2]
        exact hfound hk hf
      · exact hfound hk hf
  · rw [if_neg hk]
    split_ifs
    · rw [markMissing_apply, if_neg fun h => hk h.1]
      exact hother fun h => absurd h hk
    · exact hother fun h => absurd h hk

theorem removeAll_apply {k : κ} : ∀ {ks : List κ} {s : Store κ ε},
    EntityCache.removeAll s ks k = if k ∈ ks then none else s k
  | [], s => by simp [EntityCache.removeAll]
  | k' :: ks, s => by
    have ih : EntityCache.removeAll (EntityCache.remove s k') ks k =
      if k ∈ ks then none else EntityCache.remove s k' k := removeAll_apply
    simp only [EntityCache.removeAll, foldl_cons] at ih ⊢
    rw [ih]
    by_cases hk : k = k'
    · subst hk
      simp
    · simp [hk, remove_of_ne hk]

theorem mem_needed (force : Bool) (keys : List κ) (k : κ) :
    k ∈ (if force then (distinct keys, fun _ => none) else lookAll s (distinct keys) :
      Found κ ε).1 ↔
      k ∈ keys ∧ (force = true ∨ s k = none) := by
  cases force
  · have hsc := lookAll_scanned s (distinct keys)
    simp [hsc.needed, mem_distinct]
  · simp [mem_distinct]

theorem getMany_fst (h : C.ReadsRows fetch) (force : Bool) (keys : List κ) :
    (C.getMany force keys s).1 = refreshed fetch force keys s := by
  match keys with
  | [] => exact refreshed_nil.symm
  | [k] => exact congrArg Prod.fst (get_eq h.reads force k s)
  | k₁ :: k₂ :: rest =>
    funext k
    have hsc := scan_found fetch force s (nodup_distinct (k₁ :: k₂ :: rest))
    have hmem := mem_needed (s := s) force (k₁ :: k₂ :: rest) k
    have hkept : ¬ (k ∈ k₁ :: k₂ :: rest ∧ (force = true ∨ s k = none)) →
        (if force then EntityCache.removeAll s (k₁ :: k₂ :: rest) else s) k = s k := by
      intro hk
      cases force
      · rfl
      · rw [if_pos rfl, removeAll_apply, if_neg fun hk' => hk ⟨hk', .inl rfl⟩]
    simp only [getMany, lookAll_unforced, refreshed]
    generalize (if force then EntityCache.removeAll s (k₁ :: k₂ :: rest) else s) = s' at hkept ⊢
    generalize (if force then (distinct (k₁ :: k₂ :: rest), fun _ => none)
      else lookAll s (distinct (k₁ :: k₂ :: rest))) = r at hsc hmem ⊢
    by_cases hne : r.1 = []
    · have hk : ¬ (k ∈ k₁ :: k₂ :: rest ∧ (force = true ∨ s k = none)) := by
        rw [← hmem, hne]
        exact not_mem_nil
      rw [if_pos hne, if_neg hk]
      exact hkept hk
    · rw [if_neg hne]
      refine (putBack_apply h (getFromDBInBlocks_perm h hsc.nodup)
        (hsc.addFetched_needed h.reads) s' k).trans ?_
      simp only [hmem]
      split_ifs with hk
      · rfl
      · exact hkept hk

/-- A bulk lookup is the lookups of its distinct keys, one after the other. -/
theorem getMany_refines (h : C.ReadsRows fetch) (force : Bool) (keys : List κ) (s : Store κ ε) :
    C.getMany force keys s = C.getEach force (distinct keys) s := by
  have hkeys : refreshed fetch force (distinct keys) s = refreshed fetch force keys s := by
    funext k
    simp only [refreshed, mem_distinct]
  rw [getEach_eq h force (nodup_distinct keys), hkeys]
  exact Prod.ext (getMany_fst h force keys) (getMany_spec h.reads force keys).1

def tripleCache : EntityCache ℕ ℕ where
  getFromDB ks := (ks.filterMap fun k => if k < 3 then some (k + 10) else none).reverse
  getKey e := e - 10

theorem tripleCache_readsRows :
    tripleCache.ReadsRows fun k => if k < 3 then some (k + 10) else none where
  rows ks _ := reverse_perm _
  key k e h := by
    have hk : k + 10 = e := by
      split_ifs at h
      exact Option.some.inj h
    simp only [tripleCache]
    omega

theorem tripleCache_getMany :
    tripleCache.getMany false [2, 5, 0, 2] (fun _ => none)
      = tripleCache.getEach false [2, 5, 0] (fun _ => none)
    ∧ (tripleCache.getEach false [2, 5, 0] (fun _ => none)).2 = [12, 10] :=
  ⟨getMany_refines tripleCache_readsRows false [2, 5, 0, 2] (fun _ => none), by decide⟩

inductive CacheStep (κ : Type*) where
  | get (force : Bool) (keys : List κ)
  | lose (key : κ)

variable (C) in
def afterStep (s : Store κ ε) : CacheStep κ → Store κ ε
  | .get force keys => (C.getMany force keys s).1
  | .lose key => EntityCache.remove s key

/-- Whatever was looked up or lost before, while the table stays as it is a lookup returns its
rows. -/
theorem lookups_transparent (h : C.Reads fetch) (hs : Coherent fetch s)
    (steps : List (CacheStep κ)) (force : Bool) (keys : List κ) :
    (C.getMany force keys (run C.afterStep s steps)).2 = (distinct keys).filterMap fetch := by
  have hrun : Coherent fetch (run C.afterStep s steps) := by
    refine run_inv_of_step (fun s a hs => ?_) steps hs
    cases a with
    | get force keys => exact (getMany_coherent h hs force keys).2
    | lose key => exact fun k v hk => hs k v (remove_sub hk)
  exact (getMany_coherent h hrun force keys).1

theorem tripleCache_transparent :
    (tripleCache.getMany false [0, 5, 2]
      (run tripleCache.afterStep (fun _ => none) [.get false [2, 5], .lose 2])).2 = [10, 12] :=
  (lookups_transparent tripleCache_readsRows.reads (fun _ _ h => by cases h) _ _ _).trans rfl

end Many

end AciX.EntityCache
