import AciX.Cache.Bulk

/-!
# What a lookup stores

A lookup of several keys stores the entities that `GetFromDB` returns under the keys `GetKey` reads
off them, and a marker under each other key it asked for. `sound_iff` says what the two have to
agree on, and `HeadOnly.sound_iff` is the case of the caches that look at the first key of what they
are asked for.
-/

namespace AciX

open EntityCache List

structure ThrowingCache (κ ε : Type*) extends EntityCache κ ε where
  throws : List κ → Bool := fun _ => false

structure Effect (κ ε : Type*) where
  puts : List (κ × Entry ε)
  found : κ → Option ε

namespace ThrowingCache

variable {κ ε : Type*} [DecidableEq κ] (C : ThrowingCache κ ε)

section Model

def start (force : Bool) (keys : List κ) (s : Store κ ε) : Store κ ε :=
  if force then removeAll s keys else s

def lookUp (force : Bool) (keys : List κ) (s : Store κ ε) : Found κ ε :=
  if force then (distinct keys, fun _ => none)
  else lookAll s (distinct keys)

omit [DecidableEq κ] in
def throwsInBlocks (keys : List κ) : Bool :=
  if keys.length ≤ 100 then C.throws keys else (blocks 100 keys).any C.throws

def fetch (r : Found κ ε) : Effect κ ε :=
  if r.1 = [] ∨ C.throwsInBlocks r.1 then ⟨[], r.2⟩
  else
    let entities := C.getFromDBInBlocks r.1
    let d := C.addFetched r.2 entities
    { puts := entities.map (fun e => (C.getKey e, .entity e)) ++
        if entities.length ≠ r.1.length then
          (r.1.filter fun k => (d k).isNone).map fun k => (k, .notInDB)
        else []
      found := d }

def effect (force : Bool) (keys : List κ) (s : Store κ ε) : Effect κ ε :=
  match keys with
  | [] => ⟨[], fun _ => none⟩
  | [key] =>
    match start force [key] s key with
    | some (.entity e) => ⟨[], Function.update (fun _ => none) key (some e)⟩
    | some .notInDB => ⟨[], fun _ => none⟩
    | none =>
      if C.throws [key] then ⟨[], fun _ => none⟩
      else
        match C.getFromDB [key] with
        | [] => ⟨[(key, .notInDB)], fun _ => none⟩
        | e :: _ => ⟨[(key, .entity e)], Function.update (fun _ => none) key (some e)⟩
  | keys => C.fetch (lookUp force keys s)

def needed (force : Bool) (keys : List κ) (s : Store κ ε) : List κ := (lookUp force keys s).1

omit [DecidableEq κ] in
def Tells (Ident : κ → ε → Prop) (k : κ) : Entry ε → Prop
  | .entity e => Ident k e
  | .notInDB => ∀ e, ¬ Ident k e

/-- With `Ident k e` for an entity `e` of the database that `k` identifies: an entity is stored only
under a key that identifies it, a marker only under a key that identifies nothing, and each key that
identifies something is answered, unless an earlier entry is wrong about it. -/
structure Sound (Ident : κ → ε → Prop) (force : Bool) (keys : List κ) (s : Store κ ε) : Prop where
  stored : ∀ k v, (k, v) ∈ (C.effect force keys s).puts → Tells Ident k v
  answer : ∀ k ∈ keys, (∃ e, Ident k e) → (∀ v, start force keys s k = some v → Tells Ident k v) →
    ∃ e, (C.effect force keys s).found k = some e ∧ Ident k e

omit [DecidableEq κ] in
def heads (keys : List κ) : List κ := (blocks 100 keys).filterMap List.head?

end Model

variable {C} {Ident : κ → ε → Prop} {force : Bool} {keys : List κ} {s : Store κ ε} {k : κ}

section General

theorem putFetched_eq (s : Store κ ε) (es : List ε) : C.putFetched s es =
    (es.map fun e => (C.getKey e, Entry.entity e)).foldl (fun s p => put s p.1 p.2) s := by
  rw [foldl_map]
  rfl

theorem markMissing_eq {d : κ → Option ε} : ∀ (ks : List κ) (s : Store κ ε),
    markMissing s d ks =
      ((ks.filter fun k => (d k).isNone).map fun k => (k, Entry.notInDB)).foldl
        (fun s p => put s p.1 p.2) s
  | [], s => rfl
  | k :: ks, s => by
    have ih := markMissing_eq (d := d) ks (if (d k).isNone then put s k .notInDB else s)
    simp only [markMissing, foldl_cons] at ih ⊢
    rw [ih]
    by_cases hd : (d k).isNone = true <;> simp [hd]

theorem getMany_eq_effect (ht : ∀ ks, C.throws ks = false) (force : Bool) (keys : List κ)
    (s : Store κ ε) : C.getMany force keys s =
      ((C.effect force keys s).puts.foldl (fun s p => put s p.1 p.2)
        (start force keys s), (distinct keys).filterMap (C.effect force keys s).found) := by
  match keys with
  | [] => cases force <;> rfl
  | [k] =>
    have hstart : (if force then remove s k else s) = start force [k] s := rfl
    have hdist : distinct [k] = [k] := rfl
    simp only [getMany, EntityCache.get, effect, hstart, hdist, ht]
    rcases start force [k] s k with _ | ⟨e⟩ | _
    · rcases C.getFromDB [k] with _ | ⟨e, es⟩ <;> simp
    · simp
    · simp
  | k₁ :: k₂ :: rest =>
    have htb : ∀ ks, C.throwsInBlocks ks = false := by
      intro ks
      simp [throwsInBlocks, ht]
    have hstart : (if force then removeAll s (k₁ :: k₂ :: rest) else s) =
      start force (k₁ :: k₂ :: rest) s := rfl
    have hlook : (if force then (distinct (k₁ :: k₂ :: rest), fun _ => none)
        else lookAll (start force (k₁ :: k₂ :: rest) s)
          (distinct (k₁ :: k₂ :: rest))) = lookUp force (k₁ :: k₂ :: rest) s :=
      lookAll_unforced force s _ _
    simp only [getMany, effect, fetch, hstart, hlook, htb, Bool.false_eq_true, or_false]
    by_cases hr : (lookUp force (k₁ :: k₂ :: rest) s).1 = []
    · simp only [hr, if_true]
      rfl
    · rw [if_neg hr, if_neg hr]
      simp only [foldl_append, ← putFetched_eq]
      congr 1
      split_ifs
      · exact markMissing_eq _ _
      · rfl

theorem mem_needed_iff : k ∈ needed force keys s ↔ k ∈ keys ∧ start force keys s k = none := by
  have h := mem_needed (s := s) force keys k
  refine h.trans ?_
  cases force
  · simp [start]
  · simp only [start, removeAll_apply, true_or, and_true, if_true]
    exact ⟨fun hk => ⟨hk, if_pos hk⟩, fun hk => hk.1⟩

theorem lookUp_needed (h : k ∈ needed force keys s) : (lookUp force keys s).2 k = none :=
  ((scan_found (fun _ => none) force s (nodup_distinct keys)).needed k h).1

theorem lookUp_known (hk : k ∈ keys) (h : k ∉ needed force keys s) :
    (lookUp force keys s).2 k = cached (start force keys s) k := by
  have hsc := scan_found (fun _ => none) force s (nodup_distinct keys)
  have hf : force = false := by
    cases force
    · rfl
    · exact absurd (by simpa [needed, lookUp, mem_distinct] using hk) h
  subst hf
  refine ((hsc.known k (mem_distinct.2 hk)).resolve_left h).trans ?_
  have hs : s k ≠ none := fun hs => h (mem_needed_iff.2 ⟨hk, hs⟩)
  simp [EntityCache.answer, hs, start]

theorem addFetched_cases (d : κ → Option ε) : ∀ es : List ε,
    (∃ e ∈ es, C.getKey e = k ∧ C.addFetched d es k = some e) ∨
      (∀ e ∈ es, C.getKey e ≠ k) ∧ C.addFetched d es k = d k := by
  intro es
  induction es using List.reverseRecOn with
  | nil => exact .inr ⟨by simp, rfl⟩
  | append_singleton es e ih =>
    simp only [addFetched, foldl_append, foldl_cons, foldl_nil] at ih ⊢
    by_cases hk : C.getKey e = k
    · exact .inl ⟨e, by simp, hk, by rw [hk, Function.update_self]⟩
    · rw [Function.update_of_ne (Ne.symm hk)]
      rcases ih with ⟨e', he', hk', hd⟩ | ⟨hne, hd⟩
      · exact .inl ⟨e', mem_append_left _ he', hk', hd⟩
      · refine .inr ⟨fun e' he' => ?_, hd⟩
        rcases mem_append.1 he' with he' | he'
        · exact hne e' he'
        · rw [mem_singleton.1 he']
          exact hk

theorem effect_of_two (h : 2 ≤ keys.length) :
    C.effect force keys s = C.fetch (lookUp force keys s) := by
  match keys, h with
  | _ :: _ :: _, _ => rfl

/-- The entity a lookup has for a key: a fetched one that `GetKey` reads the key off, or what the
cache had. -/
theorem fetch_cases (r : Found κ ε) (k : κ) :
    (r.1 ≠ [] ∧ C.throwsInBlocks r.1 = false ∧
      ∃ e ∈ C.getFromDBInBlocks r.1, C.getKey e = k ∧ (C.fetch r).found k = some e) ∨
    (r.1 ≠ [] → C.throwsInBlocks r.1 = false → ∀ e ∈ C.getFromDBInBlocks r.1, C.getKey e ≠ k) ∧
      (C.fetch r).found k = r.2 k := by
  by_cases hr : r.1 = [] ∨ C.throwsInBlocks r.1 = true
  · refine .inr ⟨fun hne ht => ?_, by rw [fetch, if_pos hr]⟩
    simp [hne, ht] at hr
  · have hfound : (C.fetch r).found = C.addFetched r.2 (C.getFromDBInBlocks r.1) := by
      rw [fetch, if_neg hr]
    push Not at hr
    rw [hfound]
    rcases addFetched_cases (C := C) (k := k) r.2 (C.getFromDBInBlocks r.1) with h | ⟨hno, hd⟩
    · exact .inl ⟨hr.1, by simpa using hr.2, h⟩
    · exact .inr ⟨fun _ _ => hno, hd⟩

theorem mem_fetch_puts {r : Found κ ε} {v : Entry ε} :
    (k, v) ∈ (C.fetch r).puts → r.1 ≠ [] ∧ C.throwsInBlocks r.1 = false ∧
      ((∃ e ∈ C.getFromDBInBlocks r.1, C.getKey e = k ∧ v = .entity e) ∨
        k ∈ r.1 ∧ v = .notInDB ∧ (C.fetch r).found k = none) := by
  unfold fetch
  split_ifs with hr
  · intro h
    cases h
  · push Not at hr
    simp only [mem_append, mem_map, Prod.mk.injEq]
    intro h
    refine ⟨hr.1, by simpa using hr.2, ?_⟩
    rcases h with ⟨e, he, hk, hv⟩ | h
    · exact .inl ⟨e, he, hk, hv.symm⟩
    · split_ifs at h
      · simp only [mem_map, mem_filter, Prod.mk.injEq, Option.isNone_iff_eq_none] at h
        obtain ⟨k', ⟨hk', hd⟩, rfl, rfl⟩ := h
        exact .inr ⟨hk', rfl, hd⟩
      · cases h

theorem mem_fetch_puts_entity {r : Found κ ε} (hne : r.1 ≠ [])
    (ht : C.throwsInBlocks r.1 = false) {e : ε} (he : e ∈ C.getFromDBInBlocks r.1) :
    (C.getKey e, Entry.entity e) ∈ (C.fetch r).puts := by
  rw [fetch, if_neg (by simp [hne, ht])]
  exact mem_append_left _ (mem_map.2 ⟨e, he, rfl⟩)

theorem sound_def : C.Sound Ident force keys s ↔
    (∀ k v, (k, v) ∈ (C.effect force keys s).puts → Tells Ident k v) ∧
    ∀ k ∈ keys, (∃ e, Ident k e) → (∀ v, start force keys s k = some v → Tells Ident k v) →
      ∃ e, (C.effect force keys s).found k = some e ∧ Ident k e :=
  ⟨fun h => ⟨h.1, h.2⟩, fun h => ⟨h.1, h.2⟩⟩

theorem sound_iff (h : 2 ≤ keys.length) : C.Sound Ident force keys s ↔
    (needed force keys s ≠ [] → C.throwsInBlocks (needed force keys s) = false →
      ∀ e ∈ C.getFromDBInBlocks (needed force keys s), Ident (C.getKey e) e) ∧
    ∀ k ∈ needed force keys s, (∃ e, Ident k e) →
      C.throwsInBlocks (needed force keys s) = false ∧
        ∃ e ∈ C.getFromDBInBlocks (needed force keys s), C.getKey e = k := by
  have hmem : ∀ k, k ∈ needed force keys s ↔ k ∈ keys ∧ start force keys s k = none :=
    fun _ => mem_needed_iff
  have hneeded : ∀ k ∈ needed force keys s, (lookUp force keys s).2 k = none :=
    fun _ => lookUp_needed
  have hknown : ∀ k ∈ keys, k ∉ needed force keys s →
      (lookUp force keys s).2 k = cached (start force keys s) k := fun _ => lookUp_known
  rw [sound_def, effect_of_two h]
  unfold needed at *
  generalize lookUp force keys s = r at *
  constructor
  · rintro ⟨hstored, hanswer⟩
    refine ⟨fun hne ht e he => hstored _ _ (mem_fetch_puts_entity hne ht he), fun k hk hex => ?_⟩
    obtain ⟨hkeys, hstart⟩ := (hmem k).1 hk
    obtain ⟨e, he, -⟩ := hanswer k hkeys hex (by simp [hstart])
    rcases fetch_cases (C := C) r k with ⟨-, ht, e', he', hk', -⟩ | ⟨-, hd⟩
    · exact ⟨ht, e', he', hk'⟩
    · rw [hd, hneeded k hk] at he
      cases he
  · rintro ⟨hkey, hall⟩
    refine ⟨fun k v hput => ?_, fun k hk hex htells => ?_⟩
    · obtain ⟨hne, ht, ⟨e, he, rfl, rfl⟩ | ⟨hk, rfl, hd⟩⟩ := mem_fetch_puts hput
      · exact hkey hne ht e he
      · intro e hident
        obtain ⟨-, e', he', hk'⟩ := hall k hk ⟨e, hident⟩
        rcases fetch_cases (C := C) r k with ⟨-, -, e'', -, -, hd'⟩ | ⟨hno, -⟩
        · rw [hd] at hd'
          cases hd'
        · exact hno hne ht e' he' hk'
    · rcases fetch_cases (C := C) r k with ⟨hne, ht, e', he', rfl, hd⟩ | ⟨hno, hd⟩
      · exact ⟨e', hd, hkey hne ht e' he'⟩
      · by_cases hn : k ∈ r.1
        · obtain ⟨ht, e, he, hke⟩ := hall k hn hex
          exact absurd hke (hno (ne_nil_of_mem hn) ht e he)
        · have hstart : start force keys s k ≠ none := fun h0 => hn ((hmem k).2 ⟨hk, h0⟩)
          obtain ⟨v, hv⟩ := Option.ne_none_iff_exists'.1 hstart
          have htell := htells v hv
          rw [hd, hknown k hk hn]
          rcases v with e | _
          · exact ⟨e, by simp [cached, hv], htell⟩
          · obtain ⟨e, he⟩ := hex
            exact absurd he (htell e)

theorem nodup_needed : (needed force keys s).Nodup :=
  (scan_found (fun _ => none) force s (nodup_distinct keys)).nodup

omit [DecidableEq κ] in
structure Single (C : ThrowingCache κ ε) (Ident : κ → ε → Prop) : Prop where
  throws : ∀ k, C.throws [k] = true → ∀ e, ¬ Ident k e
  row : ∀ k, C.throws [k] = false → Tells Ident k (entryOf (C.getFromDB [k]).head?)

theorem Single.sound (h : C.Single Ident) (hk : keys.length < 2) : C.Sound Ident force keys s := by
  match keys, hk with
  | [], _ => exact ⟨by simp [effect], by simp⟩
  | [key], _ =>
    rw [sound_def]
    simp only [effect, mem_singleton, forall_eq]
    rcases hs : start force [key] s key with _ | ⟨e⟩ | _
    · have hrow := h.row key
      rcases ht : C.throws [key]
      · rcases hg : C.getFromDB [key] with _ | ⟨e, es⟩
        · simp only [ht, hg, head?_nil, forall_const, entryOf] at hrow
          refine ⟨?_, fun ⟨e, he⟩ => absurd he (hrow e)⟩
          simp only [Bool.false_eq_true, if_false, mem_singleton, Prod.mk.injEq]
          rintro k v ⟨rfl, rfl⟩
          exact hrow
        · simp only [ht, hg, head?_cons, forall_const, entryOf] at hrow
          refine ⟨?_, fun _ _ => ⟨e, by simp, hrow⟩⟩
          simp only [Bool.false_eq_true, if_false, mem_singleton, Prod.mk.injEq]
          rintro k v ⟨rfl, rfl⟩
          exact hrow
      · exact ⟨by simp, fun ⟨e, he⟩ => absurd he (h.throws key ht e)⟩
    · exact ⟨by simp, fun _ ht => ⟨e, by simp, ht _ rfl⟩⟩
    · exact ⟨by simp, fun ⟨e, he⟩ ht => absurd he (ht _ rfl e)⟩

theorem sound_of_reads {fetch : κ → Option ε} (hr : C.Reads fetch)
    (ht : ∀ ks, C.throws ks = false) : C.Sound (fun k e => fetch k = some e) force keys s := by
  have htb : ∀ ks, C.throwsInBlocks ks = false := by
    intro ks
    simp [throwsInBlocks, ht]
  by_cases hk : keys.length < 2
  · refine Single.sound ⟨fun k hk => ?_, fun k _ => ?_⟩ hk
    · rw [ht] at hk
      cases hk
    · rcases hg : C.getFromDB [k] with _ | ⟨e, es⟩
      · intro e he
        have := (hr.mem [k] e (nodup_singleton k)).2 ⟨k, by simp, he⟩
        simp [hg] at this
      · obtain ⟨k', hk', he⟩ := (hr.mem [k] e (nodup_singleton k)).1 (by simp [hg])
        rw [mem_singleton.1 hk'] at he
        exact he
  · refine (sound_iff (by omega)).2 ⟨fun _ _ e he => ?_, fun k hk ⟨e, he⟩ => ⟨htb _, e, ?_, ?_⟩⟩
    · obtain ⟨k, -, hf⟩ := (mem_getFromDBInBlocks hr nodup_needed).1 he
      rw [hr.key k e hf]
      exact hf
    · exact (mem_getFromDBInBlocks hr nodup_needed).2 ⟨k, hk, he⟩
    · exact hr.key k e he

end General

section Blocks

omit [DecidableEq κ] in
theorem blocks_of_le {n : ℕ} (hne : keys ≠ []) (h : keys.length ≤ n) : blocks n keys = [keys] := by
  obtain ⟨k, ks, rfl⟩ := exists_cons_of_ne_nil hne
  simp only [blocks, length_cons, blocksFrom, take_of_length_le h, drop_of_length_le h]
  cases ks.length <;> rfl

omit [DecidableEq κ] in
theorem getFromDBInBlocks_eq (hne : keys ≠ []) :
    C.getFromDBInBlocks keys = (blocks 100 keys).flatMap C.getFromDB := by
  unfold getFromDBInBlocks
  split_ifs with h
  · simp [blocks_of_le hne h]
  · rfl

omit [DecidableEq κ] in
theorem throwsInBlocks_eq (hne : keys ≠ []) :
    C.throwsInBlocks keys = (blocks 100 keys).any C.throws := by
  unfold throwsInBlocks
  split_ifs with h
  · simp [blocks_of_le hne h]
  · rfl

omit [DecidableEq κ] in
theorem mem_heads : k ∈ heads keys ↔ ∃ ks, k :: ks ∈ blocks 100 keys := by
  simp only [heads, mem_filterMap, head?_eq_some_iff]
  exact ⟨fun ⟨_, hb, ks, hks⟩ => ⟨ks, hks ▸ hb⟩, fun ⟨ks, hb⟩ => ⟨_, hb, ks, rfl⟩⟩

omit [DecidableEq κ] in
theorem exists_cons_of_mem_blocks {b : List κ} (h : b ∈ blocks 100 keys) : ∃ k ks, b = k :: ks :=
  exists_cons_of_ne_nil ((mem_blocksFrom h).2 (by norm_num))

omit [DecidableEq κ] in
theorem mem_of_mem_heads (h : k ∈ heads keys) : k ∈ keys := by
  obtain ⟨b, hb, hk⟩ := mem_filterMap.1 h
  exact (mem_blocksFrom hb).1.subset (mem_of_head? hk)

end Blocks

section Pointwise

omit [DecidableEq κ] in
/-- `GetFromDB` returns the entities that some key identifies, and throws if a key is `bad`. -/
structure Pointwise (C : ThrowingCache κ ε) (Ident : κ → ε → Prop) (bad : κ → Bool) : Prop where
  mem : ∀ ks, ks ≠ [] → ∀ e, e ∈ C.getFromDB ks ↔ ∃ k ∈ ks, Ident k e
  throws : ∀ ks, C.throws ks = ks.any bad
  bad_none : ∀ k, bad k = true → ∀ e, ¬ Ident k e

variable {bad : κ → Bool}

omit [DecidableEq κ] in
theorem Pointwise.mem_blocks (h : C.Pointwise Ident bad) (hne : keys ≠ []) {e : ε} :
    e ∈ C.getFromDBInBlocks keys ↔ ∃ k ∈ keys, Ident k e := by
  have hflat : ∀ k, k ∈ keys ↔ ∃ b ∈ blocks 100 keys, k ∈ b := by
    intro k
    conv_lhs => rw [← blocks_flatten (n := 100) (by norm_num) keys]
    exact mem_flatten
  rw [getFromDBInBlocks_eq hne, mem_flatMap]
  constructor
  · rintro ⟨b, hb, he⟩
    obtain ⟨k, hk, hid⟩ := (h.mem b ((mem_blocksFrom hb).2 (by norm_num)) e).1 he
    exact ⟨k, (hflat k).2 ⟨b, hb, hk⟩, hid⟩
  · rintro ⟨k, hk, hid⟩
    obtain ⟨b, hb, hkb⟩ := (hflat k).1 hk
    exact ⟨b, hb, (h.mem b ((mem_blocksFrom hb).2 (by norm_num)) e).2 ⟨k, hkb, hid⟩⟩

omit [DecidableEq κ] in
theorem Pointwise.throwsInBlocks (h : C.Pointwise Ident bad) (hne : keys ≠ []) :
    C.throwsInBlocks keys = keys.any bad := by
  rw [throwsInBlocks_eq hne]
  conv_rhs => rw [← blocks_flatten (n := 100) (by norm_num) keys, any_flatten]
  exact congrArg _ (funext h.throws)

omit [DecidableEq κ] in
theorem Pointwise.single (h : C.Pointwise Ident bad) : C.Single Ident where
  throws k hk := by
    rw [h.throws] at hk
    exact h.bad_none k (by simpa using hk)
  row k _ := by
    have hm := h.mem [k] (cons_ne_nil k [])
    simp only [mem_singleton, exists_eq_left] at hm
    rcases hg : C.getFromDB [k] with _ | ⟨e, es⟩
    · intro e he
      have := (hm e).2 he
      simp [hg] at this
    · exact (hm e).1 (by simp [hg])

/-- The lookup is sound if it has one key, or if the entities found have keys that identify them and
each key it has to fetch that identifies an entity is the key of one found. -/
theorem Pointwise.sound_iff (h : C.Pointwise Ident bad) : C.Sound Ident force keys s ↔
    keys.length < 2 ∨ ((∀ k ∈ needed force keys s, bad k = false) →
      ∀ k ∈ needed force keys s, ∀ e, Ident k e → Ident (C.getKey e) e) ∧
    ∀ k ∈ needed force keys s, (∃ e, Ident k e) → (∀ k' ∈ needed force keys s, bad k' = false) ∧
      ∃ k' ∈ needed force keys s, ∃ e, Ident k' e ∧ C.getKey e = k := by
  by_cases hk : keys.length < 2
  · exact iff_of_true (h.single.sound hk) (.inl hk)
  rw [ThrowingCache.sound_iff (by omega), or_iff_right hk]
  rcases hn : needed force keys s with _ | ⟨k₀, ks⟩
  · simp
  rw [← hn]
  have hne : needed force keys s ≠ [] := by simp [hn]
  simp only [h.throwsInBlocks hne, h.mem_blocks hne, any_eq_false, Bool.not_eq_true, hne, ne_eq,
    not_false_eq_true, forall_const]
  constructor
  · rintro ⟨h1, h2⟩
    refine ⟨fun hb k hk e he => h1 hb e ⟨k, hk, he⟩, fun k hk hex => ?_⟩
    obtain ⟨hb, e, ⟨k', hk', he⟩, hke⟩ := h2 k hk hex
    exact ⟨hb, k', hk', e, he, hke⟩
  · rintro ⟨h1, h2⟩
    refine ⟨fun hb e ⟨k, hk, he⟩ => h1 hb k hk e he, fun k hk hex => ?_⟩
    obtain ⟨hb, k', hk', e, he, hke⟩ := h2 k hk hex
    exact ⟨hb, e, ⟨k', hk', he⟩, hke⟩

end Pointwise

section HeadOnly

omit [DecidableEq κ] in
/-- `GetFromDB` looks at the first key only, and answers it with `one`; it throws for a `bad` one.
The key of an entity is answered as the key it was found for is. -/
structure HeadOnly (C : ThrowingCache κ ε) (Ident : κ → ε → Prop) (one : κ → List ε)
    (bad : κ → Bool) : Prop where
  getFromDB : ∀ k ks, C.getFromDB (k :: ks) = one k
  throws : ∀ k ks, C.throws (k :: ks) = bad k
  ident : ∀ k, ∀ e ∈ one k, Ident k e
  ne_nil : ∀ k e, Ident k e → one k ≠ []
  bad_nil : ∀ k, bad k = true → one k = []
  same : ∀ k, ∀ e ∈ one k, one (C.getKey e) = one k
  key : ∀ k, ∀ e ∈ one k, ∀ e' ∈ one k, C.getKey e = C.getKey e'

variable {one : κ → List ε} {bad : κ → Bool}

omit [DecidableEq κ] in
theorem HeadOnly.mem_blocks (h : C.HeadOnly Ident one bad) (hne : keys ≠ []) {e : ε} :
    e ∈ C.getFromDBInBlocks keys ↔ ∃ k ∈ heads keys, e ∈ one k := by
  rw [getFromDBInBlocks_eq hne, mem_flatMap]
  constructor
  · rintro ⟨b, hb, he⟩
    obtain ⟨k, ks, rfl⟩ := exists_cons_of_mem_blocks hb
    exact ⟨k, mem_heads.2 ⟨ks, hb⟩, h.getFromDB k ks ▸ he⟩
  · rintro ⟨k, hk, he⟩
    obtain ⟨ks, hb⟩ := mem_heads.1 hk
    exact ⟨k :: ks, hb, (h.getFromDB k ks).symm ▸ he⟩

omit [DecidableEq κ] in
theorem HeadOnly.throwsInBlocks (h : C.HeadOnly Ident one bad) (hne : keys ≠ []) :
    C.throwsInBlocks keys = false ↔ ∀ k ∈ heads keys, bad k = false := by
  rw [throwsInBlocks_eq hne, any_eq_false]
  constructor
  · intro hb k hk
    obtain ⟨ks, hks⟩ := mem_heads.1 hk
    simpa [h.throws] using hb _ hks
  · intro hk b hb
    obtain ⟨k, ks, rfl⟩ := exists_cons_of_mem_blocks hb
    simp [h.throws, hk k (mem_heads.2 ⟨ks, hb⟩)]

omit [DecidableEq κ] in
theorem HeadOnly.single (h : C.HeadOnly Ident one bad) : C.Single Ident where
  throws k hk e he := by
    rw [h.throws] at hk
    exact h.ne_nil k e he (h.bad_nil k hk)
  row k _ := by
    rw [h.getFromDB]
    rcases ho : one k with _ | ⟨e, es⟩
    · exact fun e he => h.ne_nil k e he ho
    · exact h.ident k e (by simp [ho])

omit [DecidableEq κ] in
theorem HeadOnly.exists_iff (h : C.HeadOnly Ident one bad) (k : κ) :
    (∃ e, Ident k e) ↔ one k ≠ [] := by
  refine ⟨fun ⟨e, he⟩ => h.ne_nil k e he, fun hne => ?_⟩
  obtain ⟨e, he⟩ := exists_mem_of_ne_nil _ hne
  exact ⟨e, h.ident k e he⟩

/-- The lookup is sound if it has one key, or if each key it has to fetch that identifies an entity
is the first of its hundred and is the very key of the entity. -/
theorem HeadOnly.sound_iff (h : C.HeadOnly Ident one bad) : C.Sound Ident force keys s ↔
    keys.length < 2 ∨ ∀ k ∈ needed force keys s, one k ≠ [] →
      k ∈ heads (needed force keys s) ∧ (∃ e ∈ one k, C.getKey e = k) ∧
        ∀ k' ∈ heads (needed force keys s), bad k' = false := by
  by_cases hk : keys.length < 2
  · exact iff_of_true (h.single.sound hk) (.inl hk)
  rw [ThrowingCache.sound_iff (by omega), or_iff_right hk]
  simp only [h.exists_iff]
  generalize needed force keys s = n
  have hfirst : n ≠ [] → C.throwsInBlocks n = false →
      ∀ e ∈ C.getFromDBInBlocks n, Ident (C.getKey e) e := by
    intro hne _ e he
    obtain ⟨k, -, hke⟩ := (h.mem_blocks hne).1 he
    exact h.ident _ _ (h.same k e hke ▸ hke)
  constructor
  · rintro ⟨-, hall⟩ k hk hne
    have hn := ne_nil_of_mem hk
    obtain ⟨ht, e, he, rfl⟩ := hall k hk hne
    obtain ⟨k', hk', hke⟩ := (h.mem_blocks hn).1 he
    have hsame := h.same k' e hke
    refine ⟨?_, ⟨e, hsame ▸ hke, rfl⟩, (h.throwsInBlocks hn).1 ht⟩
    -- the head `k'` the entity was found for has to be answered as well, so it is its key
    obtain ⟨-, e', he', hk''⟩ := hall k' (mem_of_mem_heads hk') (ne_nil_of_mem hke)
    obtain ⟨k₂, -, hke'⟩ := (h.mem_blocks hn).1 he'
    have hone : one k' = one k₂ := by rw [← hk'', h.same k₂ e' hke']
    rw [h.key k' e hke e' (hone ▸ hke'), hk'']
    exact hk'
  · intro hall
    refine ⟨hfirst, fun k hk hne => ?_⟩
    obtain ⟨hhead, ⟨e, he, hke⟩, hbad⟩ := hall k hk hne
    have hn := ne_nil_of_mem hk
    exact ⟨(h.throwsInBlocks hn).2 hbad, e, (h.mem_blocks hn).2 ⟨k, hhead, he⟩, hke⟩

theorem HeadOnly.sound_iff_heads (h : C.HeadOnly Ident one fun _ => false)
    (hkey : ∀ k, ∀ e ∈ one k, C.getKey e = k) : C.Sound Ident force keys s ↔
      keys.length < 2 ∨ ∀ k ∈ needed force keys s, (∃ e, Ident k e) →
        k ∈ heads (needed force keys s) := by
  rw [h.sound_iff]
  refine or_congr Iff.rfl (forall₂_congr fun k _ => ?_)
  rw [← h.exists_iff]
  refine imp_congr_right fun hex => ⟨fun hh => hh.1, fun hh => ⟨hh, ?_, fun _ _ => rfl⟩⟩
  obtain ⟨e, he⟩ := exists_mem_of_ne_nil _ ((h.exists_iff k).1 hex)
  exact ⟨e, he, hkey k e he⟩

end HeadOnly

end ThrowingCache

end AciX
