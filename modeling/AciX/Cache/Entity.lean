import AciX.Sql.Rows

/-!
# The read-through entity cache

`EntityCacheBase` keeps an entity under its key, or a marker for a key the database was asked for in
vain. A lookup answers from the entry of a key or, where there is none, from the database, and the
entries it leaves agree with the database or were there before (`get_spec`, `getMany_spec`). So
while every entry agrees with the database (`Coherent`), a lookup returns what the database holds.
-/

namespace AciX

open List

inductive Entry (ε : Type*) where
  | entity (e : ε)
  | notInDB
  deriving DecidableEq

abbrev Store (κ ε : Type*) := κ → Option (Entry ε)

structure EntityCache (κ ε : Type*) where
  getFromDB : List κ → List ε
  getKey : ε → κ

section Lists

variable {κ : Type*}

def distinct [DecidableEq κ] (ks : List κ) : List κ := Sql.distinctOn id ks

theorem mem_distinct [DecidableEq κ] {k : κ} {ks : List κ} : k ∈ distinct ks ↔ k ∈ ks := by
  refine ⟨Sql.mem_of_mem_distinctOn, fun h => ?_⟩
  obtain ⟨k', hk', rfl⟩ : ∃ k' ∈ distinct ks, id k' = id k := Sql.exists_mem_distinctOn h
  exact hk'

theorem nodup_distinct [DecidableEq κ] (ks : List κ) : (distinct ks).Nodup :=
  List.Nodup.of_map _ (Sql.unique_distinctOn ks)

def blocksFrom (n : ℕ) : ℕ → List κ → List (List κ)
  | 0, _ => []
  | _ + 1, [] => []
  | fuel + 1, ks => ks.take n :: blocksFrom n fuel (ks.drop n)

/-- The list in pieces of at most `n`, as the `while (intOffset < Length)` loops cut it. -/
def blocks (n : ℕ) (ks : List κ) : List (List κ) := blocksFrom n ks.length ks

theorem blocksFrom_flatten {n : ℕ} (hn : 0 < n) :
    ∀ {fuel : ℕ} {ks : List κ}, ks.length ≤ fuel → (blocksFrom n fuel ks).flatten = ks
  | 0, ks, h => by
    have : ks = [] := length_eq_zero_iff.1 (by omega)
    subst this
    rfl
  | _ + 1, [], _ => rfl
  | fuel + 1, k :: ks, h => by
    have hd : ((k :: ks).drop n).length ≤ fuel := by
      simp only [length_cons, length_drop] at h ⊢
      omega
    rw [blocksFrom, flatten_cons, blocksFrom_flatten hn hd, take_append_drop]
    simp

theorem mem_blocksFrom {n : ℕ} {b : List κ} : ∀ {fuel : ℕ} {ks : List κ},
    b ∈ blocksFrom n fuel ks → b.Sublist ks ∧ (0 < n → b ≠ [])
  | 0, _, h => by simp [blocksFrom] at h
  | _ + 1, [], h => by simp [blocksFrom] at h
  | fuel + 1, k :: ks, h => by
    rw [blocksFrom, mem_cons] at h
    · rcases h with rfl | h
      · refine ⟨take_sublist _ _, fun hn => ?_⟩
        simp only [ne_eq, take_eq_nil_iff, reduceCtorEq, or_false]
        omega
      · obtain ⟨hsub, hne⟩ := mem_blocksFrom h
        exact ⟨hsub.trans (drop_sublist _ _), hne⟩
    · simp

theorem blocks_flatten {n : ℕ} (hn : 0 < n) (ks : List κ) : (blocks n ks).flatten = ks :=
  blocksFrom_flatten hn le_rfl

end Lists

namespace EntityCache

variable {κ ε : Type*} [DecidableEq κ] (C : EntityCache κ ε) {s : Store κ ε} {k k' : κ}
  {v : Entry ε}

def put (s : Store κ ε) (k : κ) (v : Entry ε) : Store κ ε := Function.update s k (some v)

def remove (s : Store κ ε) (k : κ) : Store κ ε := Function.update s k none

def removeAll (s : Store κ ε) (ks : List κ) : Store κ ε := ks.foldl remove s

def set (s : Store κ ε) (e : ε) : Store κ ε := put s (C.getKey e) (.entity e)

def get (force : Bool) (key : κ) (s : Store κ ε) : Store κ ε × Option ε :=
  let s := if force then remove s key else s
  match s key with
  | none =>
    match C.getFromDB [key] with
    | [] => (put s key .notInDB, none)
    | e :: _ => (put s key (.entity e), some e)
  | some .notInDB => (s, none)
  | some (.entity e) => (s, some e)

abbrev Found (κ ε : Type*) := List κ × (κ → Option ε)

def lookKey (s : Store κ ε) (r : Found κ ε) (k : κ) : Found κ ε :=
  match s k with
  | none => (r.1 ++ [k], r.2)
  | some .notInDB => r
  | some (.entity e) => (r.1, Function.update r.2 k (some e))

def lookAll (s : Store κ ε) (keys : List κ) : Found κ ε :=
  (blocks 50 keys).foldl (fun r ks => ks.foldl (lookKey s) r) ([], fun _ => none)

def getFromDBInBlocks (keys : List κ) : List ε :=
  if keys.length ≤ 100 then C.getFromDB keys else (blocks 100 keys).flatMap C.getFromDB

def putFetched (s : Store κ ε) (es : List ε) : Store κ ε :=
  es.foldl (fun s e => put s (C.getKey e) (.entity e)) s

def addFetched (d : κ → Option ε) (es : List ε) : κ → Option ε :=
  es.foldl (fun d e => Function.update d (C.getKey e) (some e)) d

def markMissing (s : Store κ ε) (d : κ → Option ε) (ks : List κ) : Store κ ε :=
  ks.foldl (fun s k => if (d k).isNone then put s k .notInDB else s) s

def getMany (force : Bool) (keys : List κ) (s : Store κ ε) : Store κ ε × List ε :=
  match keys with
  | [] => (s, [])
  | [key] => ((C.get force key s).1, (C.get force key s).2.toList)
  | keys =>
    let s := if force then removeAll s keys else s
    let keys := distinct keys
    let found := if force then (keys, fun _ => none) else lookAll s keys
    if found.1 = [] then (s, keys.filterMap found.2)
    else
      let entities := C.getFromDBInBlocks found.1
      let d := C.addFetched found.2 entities
      let s := C.putFetched s entities
      let s := if entities.length ≠ found.1.length then markMissing s d found.1 else s
      (s, keys.filterMap d)

/-- The cache reads the table `fetch`: each row it is asked for, under its own key. A key is
asked for once. -/
structure Reads (fetch : κ → Option ε) : Prop where
  mem : ∀ ks e, ks.Nodup → (e ∈ C.getFromDB ks ↔ ∃ k ∈ ks, fetch k = some e)
  key : ∀ k e, fetch k = some e → C.getKey e = k

/-- The entry says of the key what the database says. -/
def Agrees (fetch : κ → Option ε) (k : κ) : Entry ε → Prop
  | .entity e => fetch k = some e
  | .notInDB => fetch k = none

def Coherent (fetch : κ → Option ε) (s : Store κ ε) : Prop :=
  ∀ k v, s k = some v → Agrees fetch k v

def cached (s : Store κ ε) (k : κ) : Option ε :=
  match s k with
  | some (.entity e) => some e
  | _ => none

def answer (fetch : κ → Option ε) (force : Bool) (s : Store κ ε) (k : κ) : Option ε :=
  if force = true ∨ s k = none then fetch k else cached s k

@[simp] theorem put_self (s : Store κ ε) (k : κ) (v : Entry ε) : put s k v k = some v := by
  simp [put]

theorem put_of_ne (h : k' ≠ k) : put s k v k' = s k' := by
  simp [put, h]

theorem put_cases {v v' : Entry ε} (h : put s k v k' = some v') :
    (k' = k ∧ v' = v) ∨ s k' = some v' := by
  by_cases hk : k' = k
  · subst hk
    rw [put_self, Option.some.injEq] at h
    exact .inl ⟨rfl, h.symm⟩
  · rw [put_of_ne hk] at h
    exact .inr h

@[simp] theorem remove_self (s : Store κ ε) (k : κ) : remove s k k = none := by simp [remove]

theorem remove_of_ne (h : k' ≠ k) : remove s k k' = s k' := by
  simp [remove, h]

theorem remove_sub (h : remove s k k' = some v) : s k' = some v := by
  by_cases hk : k' = k
  · subst hk
    simp at h
  · rwa [remove_of_ne hk] at h

theorem removeAll_sub {k : κ} :
    ∀ {ks : List κ} {s : Store κ ε}, removeAll s ks k = some v → s k = some v
  | [], _, h => h
  | _ :: _, _, h => remove_sub (removeAll_sub h)

section Lookups

variable {C} {fetch : κ → Option ε} {s : Store κ ε} {keys : List κ} {s' : Store κ ε} {k : κ}
  {r : Found κ ε}

/-- The entries of `s'` were there in `s`, or were made for one of `keys` and agree with the
table. -/
def Adds (fetch : κ → Option ε) (keys : List κ) (s s' : Store κ ε) : Prop :=
  ∀ k v, s' k = some v → s k = some v ∨ k ∈ keys ∧ Agrees fetch k v

omit [DecidableEq κ] in
theorem Adds.refl (keys : List κ) : Adds fetch keys s s := fun _ _ h => .inl h

theorem Adds.put {v : Entry ε} (h : Adds fetch keys s s') (hk : k ∈ keys) (hv : Agrees fetch k v) :
    Adds fetch keys s (put s' k v) := by
  intro k' v' h'
  by_cases hkk : k' = k
  · subst hkk
    rw [put_self, Option.some.injEq] at h'
    exact .inr ⟨hk, h' ▸ hv⟩
  · rw [put_of_ne hkk] at h'
    exact h k' v' h'

omit [DecidableEq κ] in
theorem Reads.getFromDB_singleton (hr : C.Reads fetch) (k : κ) :
    (C.getFromDB [k]).head? = fetch k := by
  have hmem : ∀ e, e ∈ C.getFromDB [k] ↔ fetch k = some e := by
    intro e
    rw [hr.mem [k] e (nodup_singleton k)]
    simp
  rcases hdb : C.getFromDB [k] with _ | ⟨e, es⟩
  · rcases hf : fetch k with _ | e
    · rfl
    · have := (hmem e).2 hf
      simp [hdb] at this
  · exact ((hmem e).1 (by simp [hdb])).symm

theorem get_spec_of_head (hdb : (C.getFromDB [k]).head? = fetch k) (force : Bool) :
    (C.get force k s).2 = answer fetch force s k ∧ Adds fetch [k] s (C.get force k s).1 := by
  have hadds : Adds fetch [k] s (if force then EntityCache.remove s k else s) := by
    cases force
    · exact Adds.refl _
    · exact fun k' v h => .inl (remove_sub h)
  have hread : (if force then EntityCache.remove s k else s) k = if force then none else s k := by
    cases force <;> simp
  simp only [get, answer, cached]
  generalize (if force then EntityCache.remove s k else s) = s' at hadds hread ⊢
  rcases hk : s' k with _ | ⟨e⟩ | _
  · have hmiss : force = true ∨ s k = none := by
      cases force
      · exact .inr (by simpa [hk] using hread.symm)
      · exact .inl rfl
    rw [if_pos hmiss]
    rcases h : C.getFromDB [k] with _ | ⟨e, es⟩
    · rw [h, head?_nil] at hdb
      exact ⟨hdb, hadds.put (by simp) hdb.symm⟩
    · rw [h, head?_cons] at hdb
      exact ⟨hdb, hadds.put (by simp) hdb.symm⟩
  all_goals
    cases force
    · have hs : s k = s' k := by simpa using hread.symm
      simp [hs, hk, hadds]
    · simp [hk] at hread

theorem get_spec (hr : C.Reads fetch) (force : Bool) (k : κ) :
    (C.get force k s).2 = answer fetch force s k ∧ Adds fetch [k] s (C.get force k s).1 :=
  get_spec_of_head (hr.getFromDB_singleton k) force

theorem lookAll_eq (s : Store κ ε) (keys : List κ) :
    lookAll s keys = keys.foldl (lookKey s) ([], fun _ => none) := by
  rw [lookAll, ← foldl_flatten, blocks_flatten (by norm_num)]

/-- What reading `keys` has found: the misses in order, and the entity of every other key. -/
structure Scanned (s : Store κ ε) (keys : List κ) (r : Found κ ε) : Prop where
  needed : r.1 = keys.filter fun k => (s k).isNone
  found : ∀ k, r.2 k = if k ∈ keys then cached s k else none

theorem lookKey_scanned (h : Scanned s keys r) : Scanned s (keys ++ [k]) (lookKey s r k) := by
  have hupd : ∀ k', k' ≠ k → (if k' ∈ keys ++ [k] then cached s k' else none)
      = if k' ∈ keys then cached s k' else none := by
    intro k' hk'
    simp [hk']
  rcases hk : s k with _ | ⟨e⟩ | _
  · have hl : lookKey s r k = (r.1 ++ [k], r.2) := by simp [lookKey, hk]
    rw [hl]
    refine ⟨by simp [h.needed, hk], fun k' => ?_⟩
    by_cases hkk : k' = k
    · subst hkk
      simp [h.found, cached, hk]
    · rw [hupd k' hkk, h.found]
  · have hl : lookKey s r k = (r.1, Function.update r.2 k (some e)) := by simp [lookKey, hk]
    rw [hl]
    refine ⟨by simp [h.needed, hk], fun k' => ?_⟩
    by_cases hkk : k' = k
    · subst hkk
      simp [cached, hk]
    · rw [hupd k' hkk, ← h.found]
      exact Function.update_of_ne hkk _ _
  · have hl : lookKey s r k = r := by simp [lookKey, hk]
    rw [hl]
    refine ⟨by simp [h.needed, hk], fun k' => ?_⟩
    by_cases hkk : k' = k
    · subst hkk
      simp [h.found, cached, hk]
    · rw [hupd k' hkk, h.found]

theorem lookAll_unforced (force : Bool) (s : Store κ ε) (ks keys : List κ) :
    (if force then (keys, fun _ => none) else lookAll (if force then removeAll s ks else s) keys) =
      if force then (keys, fun _ => none) else lookAll s keys := by
  cases force <;> rfl

theorem lookAll_scanned (s : Store κ ε) (keys : List κ) : Scanned s keys (lookAll s keys) := by
  rw [lookAll_eq]
  induction keys using List.reverseRecOn with
  | nil => exact ⟨rfl, by simp⟩
  | append_singleton keys k ih =>
    rw [foldl_append]
    exact lookKey_scanned ih

omit [DecidableEq κ] in
theorem mem_getFromDBInBlocks (hr : C.Reads fetch) (hn : keys.Nodup) {e : ε} :
    e ∈ C.getFromDBInBlocks keys ↔ ∃ k ∈ keys, fetch k = some e := by
  unfold getFromDBInBlocks
  split_ifs with h
  · exact hr.mem keys e hn
  · rw [mem_flatMap]
    refine ⟨fun ⟨b, hb, he⟩ => ?_, fun ⟨k, hk, hf⟩ => ?_⟩
    · have hsub := (mem_blocksFrom hb).1
      obtain ⟨k, hk, hf⟩ := (hr.mem b e (hn.sublist hsub)).1 he
      exact ⟨k, hsub.subset hk, hf⟩
    · rw [← blocks_flatten (n := 100) (by norm_num) keys] at hk
      obtain ⟨b, hb, hkb⟩ := mem_flatten.1 hk
      exact ⟨b, hb, (hr.mem b e (hn.sublist (mem_blocksFrom hb).1)).2 ⟨k, hkb, hf⟩⟩

theorem putFetched_adds (hr : C.Reads fetch) :
    ∀ {es : List ε} {s' : Store κ ε}, Adds fetch keys s s' →
      (∀ e ∈ es, ∃ k ∈ keys, fetch k = some e) → Adds fetch keys s (C.putFetched s' es)
  | [], _, hs, _ => hs
  | e :: es, s', hs, h => by
    obtain ⟨k, hk, hf⟩ := h e (by simp)
    obtain rfl := hr.key k e hf
    show Adds fetch keys s (C.putFetched (EntityCache.put s' (C.getKey e) (.entity e)) es)
    exact putFetched_adds hr (hs.put hk hf) fun e' he' => h e' (by simp [he'])

open scoped Classical in
theorem addFetched_apply (hr : C.Reads fetch) :
    ∀ {es : List ε} {d : κ → Option ε}, (∀ e ∈ es, ∃ k, fetch k = some e) →
      C.addFetched d es k = if ∃ e ∈ es, fetch k = some e then fetch k else d k
  | [], d, _ => by simp [addFetched]
  | e :: es, d, h => by
    obtain ⟨k', hk'⟩ := h e (by simp)
    have hkey := hr.key k' e hk'
    have hrest : ∀ e ∈ es, ∃ k, fetch k = some e := fun e' he' => h e' (by simp [he'])
    have ih := addFetched_apply hr (d := Function.update d (C.getKey e) (some e)) hrest
    rw [addFetched, foldl_cons, ← addFetched, ih]
    by_cases h1 : ∃ e' ∈ es, fetch k = some e'
    · obtain ⟨e', he', hf⟩ := h1
      rw [if_pos ⟨e', he', hf⟩, if_pos ⟨e', by simp [he'], hf⟩]
    · rw [if_neg h1]
      by_cases hkk : k = C.getKey e
      · subst hkk
        rw [Function.update_self, hkey, if_pos ⟨e, by simp, hk'⟩, hk']
      · rw [Function.update_of_ne hkk, if_neg]
        rintro ⟨e', he', hf⟩
        simp only [mem_cons] at he'
        rcases he' with rfl | he'
        · exact hkk (hr.key k e' hf).symm
        · exact h1 ⟨e', he', hf⟩

theorem markMissing_adds {d : κ → Option ε} :
    ∀ {ks : List κ} {s' : Store κ ε}, Adds fetch keys s s' →
      (∀ k ∈ ks, d k = none → k ∈ keys ∧ fetch k = none) →
      Adds fetch keys s (markMissing s' d ks)
  | [], _, hs, _ => hs
  | k :: ks, s', hs, h => by
    have hrest : ∀ k ∈ ks, d k = none → k ∈ keys ∧ fetch k = none :=
      fun k' hk' => h k' (by simp [hk'])
    simp only [markMissing, foldl_cons]
    by_cases hd : d k = none
    · obtain ⟨hk, hf⟩ := h k (by simp) hd
      rw [if_pos (by simp [hd])]
      exact markMissing_adds (hs.put hk hf) hrest
    · rw [if_neg (by simpa [Option.isNone_iff_eq_none] using hd)]
      exact markMissing_adds hs hrest

structure Scan (fetch : κ → Option ε) (force : Bool) (s : Store κ ε) (keys : List κ)
    (r : Found κ ε) : Prop where
  nodup : r.1.Nodup
  subset : ∀ k ∈ r.1, k ∈ keys
  needed : ∀ k ∈ r.1, r.2 k = none ∧ answer fetch force s k = fetch k
  known : ∀ k ∈ keys, k ∈ r.1 ∨ r.2 k = answer fetch force s k

theorem scan_found (fetch : κ → Option ε) (force : Bool) (s : Store κ ε) (hn : keys.Nodup) :
    Scan fetch force s keys (if force then (keys, fun _ => none) else lookAll s keys) := by
  cases force
  · have hsc := lookAll_scanned s keys
    simp only [Bool.false_eq_true, if_false]
    refine ⟨hsc.needed ▸ hn.filter _, fun k hk => ?_, fun k hk => ?_, fun k hk => ?_⟩
    · rw [hsc.needed, mem_filter] at hk
      exact hk.1
    · rw [hsc.needed, mem_filter, Option.isNone_iff_eq_none] at hk
      simp [hsc.found, answer, cached, hk.2]
    · by_cases hs : s k = none
      · exact .inl (by simp [hsc.needed, hk, hs])
      · exact .inr (by simp [hsc.found, answer, hk, hs])
  · exact ⟨hn, fun _ hk => hk, fun _ _ => ⟨rfl, by simp [answer]⟩, fun _ hk => .inl hk⟩

open Classical in
theorem Scan.addFetched_apply (hr : C.Reads fetch) {force : Bool}
    (h : Scan fetch force s keys r) (k : κ) : C.addFetched r.2 (C.getFromDBInBlocks r.1) k
      = if ∃ e ∈ C.getFromDBInBlocks r.1, fetch k = some e then fetch k else r.2 k :=
  EntityCache.addFetched_apply hr fun _ he =>
    ((mem_getFromDBInBlocks hr h.nodup).1 he).imp fun _ hk => hk.2

theorem Scan.addFetched_needed (hr : C.Reads fetch) {force : Bool}
    (h : Scan fetch force s keys r) : ∀ k ∈ r.1,
    C.addFetched r.2 (C.getFromDBInBlocks r.1) k = fetch k := by
  intro k hk
  rw [h.addFetched_apply hr, (h.needed k hk).1]
  split_ifs with hex
  · rfl
  · rcases hf : fetch k with _ | e
    · rfl
    · exact absurd ⟨e, (mem_getFromDBInBlocks hr h.nodup).2 ⟨k, hk, hf⟩, hf⟩ hex

theorem getMany_spec (hr : C.Reads fetch) (force : Bool) (keys : List κ) :
    (C.getMany force keys s).2 = (distinct keys).filterMap (answer fetch force s)
      ∧ Adds fetch keys s (C.getMany force keys s).1 := by
  classical
  match keys with
  | [] => exact ⟨rfl, Adds.refl _⟩
  | [k] =>
    obtain ⟨h1, h2⟩ := get_spec (s := s) hr force k
    refine ⟨?_, h2⟩
    simp only [getMany, h1, distinct, Sql.distinctOn, filter_nil]
    cases hf : answer fetch force s k <;> simp [hf]
  | k₁ :: k₂ :: rest =>
    have hnd := nodup_distinct (k₁ :: k₂ :: rest)
    have hmem : ∀ k, k ∈ distinct (k₁ :: k₂ :: rest) ↔ k ∈ k₁ :: k₂ :: rest := fun k => mem_distinct
    have hs' : Adds fetch (k₁ :: k₂ :: rest) s
        (if force then EntityCache.removeAll s (k₁ :: k₂ :: rest) else s) := by
      cases force
      · exact Adds.refl _
      · exact fun k v h => .inl (removeAll_sub h)
    have hsc := scan_found fetch force s hnd
    simp only [getMany, lookAll_unforced]
    generalize (if force then EntityCache.removeAll s (k₁ :: k₂ :: rest) else s) = s' at hs' ⊢
    generalize (if force then (distinct (k₁ :: k₂ :: rest), fun _ => none)
      else lookAll s (distinct (k₁ :: k₂ :: rest))) = r at hsc ⊢
    generalize distinct (k₁ :: k₂ :: rest) = ks at hnd hmem hsc ⊢
    have hfetched : ∀ e ∈ C.getFromDBInBlocks r.1, ∃ k ∈ k₁ :: k₂ :: rest, fetch k = some e := by
      intro e he
      obtain ⟨k, hk, hf⟩ := (mem_getFromDBInBlocks hr hsc.nodup).1 he
      exact ⟨k, (hmem k).1 (hsc.subset k hk), hf⟩
    have happly := hsc.addFetched_apply hr
    have hneeded := hsc.addFetched_needed hr
    have hanswer : ∀ k ∈ ks, C.addFetched r.2 (C.getFromDBInBlocks r.1) k
        = answer fetch force s k := by
      intro k hk
      by_cases hn : k ∈ r.1
      · rw [hneeded k hn, (hsc.needed k hn).2]
      · rw [happly, if_neg, (hsc.known k hk).resolve_left hn]
        rintro ⟨e, he, hf⟩
        obtain ⟨k', hk', hf'⟩ := (mem_getFromDBInBlocks hr hsc.nodup).1 he
        exact hn ((hr.key k e hf).symm.trans (hr.key k' e hf') ▸ hk')
    split_ifs with hne hlen
    · refine ⟨filterMap_congr fun k hk => ?_, hs'⟩
      exact (hsc.known k hk).resolve_left (by simp [hne])
    · refine ⟨filterMap_congr hanswer, markMissing_adds (putFetched_adds hr hs' hfetched) ?_⟩
      exact fun k hk hd => ⟨(hmem k).1 (hsc.subset k hk), by rw [← hneeded k hk, hd]⟩
    · exact ⟨filterMap_congr hanswer, putFetched_adds hr hs' hfetched⟩

omit [DecidableEq κ] in
theorem Coherent.adds (hs : Coherent fetch s)
    (h : Adds fetch keys s s') : Coherent fetch s' := fun k v hk =>
  (h k v hk).elim (hs k v) And.right

omit [DecidableEq κ] in
theorem Coherent.answer_eq (hs : Coherent fetch s) (force : Bool) (k : κ) :
    answer fetch force s k = fetch k := by
  unfold answer cached
  split_ifs with h
  · rfl
  · rcases hk : s k with _ | ⟨e⟩ | _
    · exact absurd (.inr hk) h
    · exact (hs k _ hk).symm
    · exact (hs k _ hk).symm

theorem getMany_coherent (hr : C.Reads fetch) (hs : Coherent fetch s) (force : Bool)
    (keys : List κ) :
    (C.getMany force keys s).2 = (distinct keys).filterMap fetch
      ∧ Coherent fetch (C.getMany force keys s).1 := by
  obtain ⟨h1, h2⟩ := getMany_spec (s := s) hr force keys
  refine ⟨h1.trans (filterMap_congr fun k _ => hs.answer_eq force k), hs.adds h2⟩

theorem get_kept {k k' : κ} (h : s k ≠ none) : (C.get false k' s).1 k = s k := by
  have hne : s k' = none → k ≠ k' := by
    rintro h' rfl
    exact h h'
  simp only [get, Bool.false_eq_true, if_false]
  rcases hk : s k' with _ | ⟨e⟩ | _
  · rcases C.getFromDB [k'] with _ | ⟨e, es⟩ <;> exact put_of_ne (hne hk)
  · rfl
  · rfl

theorem putFetched_of_ne :
    ∀ {es : List ε} {s : Store κ ε}, (∀ e ∈ es, C.getKey e ≠ k) → C.putFetched s es k = s k
  | [], _, _ => rfl
  | e :: es, s, h => by
    show C.putFetched (EntityCache.put s (C.getKey e) (.entity e)) es k = s k
    rw [putFetched_of_ne fun e' he' => h e' (by simp [he']), put_of_ne (h e (by simp)).symm]

theorem markMissing_of_notMem {d : κ → Option ε} :
    ∀ {ks : List κ} {s : Store κ ε}, k ∉ ks → markMissing s d ks k = s k
  | [], _, _ => rfl
  | k' :: ks, s, h => by
    simp only [mem_cons, not_or] at h
    simp only [markMissing, foldl_cons]
    split_ifs
    · exact (markMissing_of_notMem h.2).trans (put_of_ne h.1)
    · exact markMissing_of_notMem h.2

theorem getMany_kept (hr : C.Reads fetch) (h : s k ≠ none) :
    (C.getMany false keys s).1 k = s k := by
  match keys with
  | [] => rfl
  | [k'] => exact get_kept h
  | k₁ :: k₂ :: rest =>
    have hsc := lookAll_scanned s (distinct (k₁ :: k₂ :: rest))
    have hn : k ∉ (lookAll s (distinct (k₁ :: k₂ :: rest))).1 := by
      rw [hsc.needed, mem_filter, Option.isNone_iff_eq_none]
      exact fun hk => h hk.2
    have hnd : (lookAll s (distinct (k₁ :: k₂ :: rest))).1.Nodup :=
      hsc.needed ▸ (nodup_distinct _).filter _
    have hput : C.putFetched s (C.getFromDBInBlocks (lookAll s (distinct (k₁ :: k₂ :: rest))).1) k
        = s k := by
      refine putFetched_of_ne fun e he hke => ?_
      obtain ⟨k', hk', hf⟩ := (mem_getFromDBInBlocks hr hnd).1 he
      exact hn (hke ▸ hr.key k' e hf ▸ hk')
    simp only [getMany, Bool.false_eq_true, if_false]
    split_ifs
    · rfl
    · exact (markMissing_of_notMem hn).trans hput
    · exact hput

def Extends (fetch : κ → Option ε) (s s' : Store κ ε) : Prop :=
  ∀ k, s' k = s k ∨ s k = none ∧ ∃ v, s' k = some v ∧ Agrees fetch k v

omit [DecidableEq κ] in
theorem Extends.refl (fetch : κ → Option ε) (s : Store κ ε) : Extends fetch s s :=
  fun _ => .inl rfl

omit [DecidableEq κ] in
theorem Extends.trans {s' s'' : Store κ ε} (h : Extends fetch s s') (h' : Extends fetch s' s'') :
    Extends fetch s s'' := by
  intro k
  rcases h' k with h' | ⟨hn, hv⟩
  · rw [h']
    exact h k
  · rcases h k with h | ⟨-, v, hv', -⟩
    · exact .inr ⟨h ▸ hn, hv⟩
    · rw [hv'] at hn
      cases hn

omit [DecidableEq κ] in
theorem Adds.extends (h : Adds fetch keys s s')
    (hkept : ∀ k, s k ≠ none → s' k = s k) : Extends fetch s s' := by
  intro k
  by_cases hk : s k = none
  · rcases hv : s' k with _ | v
    · exact .inl hk.symm
    · rcases h k v hv with h | h
      · rw [hk] at h
        cases h
      · exact .inr ⟨hk, v, rfl, h.2⟩
  · exact .inl (hkept k hk)

theorem get_extends (hr : C.Reads fetch) (k : κ) : Extends fetch s (C.get false k s).1 :=
  (get_spec hr false k).2.extends fun _ h => get_kept h

theorem getMany_extends (hr : C.Reads fetch) (keys : List κ) :
    Extends fetch s (C.getMany false keys s).1 :=
  (getMany_spec hr false keys).2.extends fun _ h => getMany_kept hr h

omit [DecidableEq κ] in
theorem Extends.answer_eq (h : Extends fetch s s') :
    answer fetch false s' = answer fetch false s := by
  funext k
  unfold answer cached
  rcases h k with h | ⟨hn, v, hv, ha⟩
  · rw [h]
  · rw [hn, hv]
    cases v <;> simpa [Agrees] using ha.symm

end Lookups

end EntityCache

end AciX
