import AciX.Sql.Text

/-!
# A Redis server

A server holds a string or a hash under each of finitely many keys. A command for strings fails on a
hash, but a string may be set in its place; a hash without fields is not there at all. `SCAN` finds
the keys that match a glob-style pattern (`glob_append_star`, `glob_star_append`).
-/

namespace AciX

open List

inductive RedisEntry where
  | string (value : Text)
  | hash (fields : List (Text × Text))

structure Redis where
  entry : Text → Option RedisEntry
  keys : List Text
  nodup : keys.Nodup
  mem_keys : ∀ k, k ∈ keys ↔ entry k ≠ none

inductive GlobItem where
  | any
  | one
  | oneOf (negated : Bool) (ranges : List (Char × Char))
  | exactly (c : Char)

/-- The items of a pattern; the first argument holds what was read since a bracket was opened. -/
def globItems : Option (Bool × List (Char × Char)) → Text → List GlobItem
  | none, [] => []
  | some (n, rs), [] => [.oneOf n rs]
  | none, '*' :: p => .any :: globItems none p
  | none, '?' :: p => .one :: globItems none p
  | none, '[' :: '^' :: p => globItems (some (true, [])) p
  | none, '[' :: p => globItems (some (false, [])) p
  | none, '\\' :: c :: p => .exactly c :: globItems none p
  | none, c :: p => .exactly c :: globItems none p
  | some (n, rs), '\\' :: c :: p => globItems (some (n, rs ++ [(c, c)])) p
  | some (n, rs), ']' :: p => .oneOf n rs :: globItems none p
  | some (n, rs), a :: '-' :: b :: p => globItems (some (n, rs ++ [(min a b, max a b)])) p
  | some (n, rs), c :: p => globItems (some (n, rs ++ [(c, c)])) p

def globMatch : List GlobItem → Text → Bool
  | [], t => t.isEmpty
  | .any :: p, t => t.tails.any (globMatch p)
  | .one :: p, _ :: t => globMatch p t
  | .oneOf negated ranges :: p, c :: t =>
    (ranges.any (fun r => r.1 ≤ c && c ≤ r.2) != negated) && globMatch p t
  | .exactly c :: p, d :: t => c = d && globMatch p t
  | _ :: _, [] => false

/-- `KEYS` compares bytes; on characters this is the same where `?` and brackets meet ASCII only. -/
def glob (pattern key : Text) : Bool := globMatch (globItems none pattern) key

def GlobPlain (t : Text) : Prop := ∀ c ∈ t, c ≠ '*' ∧ c ≠ '?' ∧ c ≠ '[' ∧ c ≠ '\\'

instance (t : Text) : Decidable (GlobPlain t) :=
  decidable_of_iff (t.all fun c => c ≠ '*' ∧ c ≠ '?' ∧ c ≠ '[' ∧ c ≠ '\\')
    (by simp only [all_eq_true, decide_eq_true_eq, GlobPlain])

theorem GlobPlain.append {s t : Text} (hs : GlobPlain s) (ht : GlobPlain t) :
    GlobPlain (s ++ t) := by
  intro c hc
  rcases mem_append.1 hc with hc | hc
  · exact hs c hc
  · exact ht c hc

theorem globItems_append {p : Text} : ∀ {s : Text}, GlobPlain s →
    globItems none (s ++ p) = s.map .exactly ++ globItems none p
  | [], _ => rfl
  | c :: s, h => by
    obtain ⟨h1, h2, h3, h4⟩ := h c (by simp)
    have ih := globItems_append (p := p) fun d hd => h d (mem_cons_of_mem c hd)
    rw [cons_append, map_cons, cons_append, ← ih]
    rw [globItems.eq_def]
    split <;> simp_all

theorem globMatch_exactly {p : List GlobItem} : ∀ {s k : Text},
    globMatch (s.map .exactly ++ p) k = true ↔ ∃ t, k = s ++ t ∧ globMatch p t = true
  | [], k => by simp
  | c :: s, [] => by simp [globMatch]
  | c :: s, d :: k => by
    simp only [map_cons, cons_append, globMatch, Bool.and_eq_true, decide_eq_true_eq,
      globMatch_exactly (s := s) (k := k), List.cons.injEq]
    constructor
    · rintro ⟨rfl, t, rfl, h⟩
      exact ⟨t, ⟨rfl, rfl⟩, h⟩
    · rintro ⟨t, ⟨rfl, rfl⟩, h⟩
      exact ⟨rfl, t, rfl, h⟩

theorem glob_append_star {s : Text} (hs : GlobPlain s) (k : Text) :
    glob (s ++ ['*']) k = true ↔ s <+: k := by
  have hany : ∀ t : Text, globMatch (globItems none ['*']) t = true := by
    intro t
    have hnil : ([] : Text) ∈ t.tails := by simp
    simp only [globItems, globMatch, any_eq_true]
    exact ⟨[], hnil, rfl⟩
  rw [glob, globItems_append hs, globMatch_exactly]
  constructor
  · rintro ⟨t, rfl, -⟩
    exact prefix_append s t
  · rintro ⟨t, rfl⟩
    exact ⟨t, rfl, hany t⟩

theorem glob_star_append {s : Text} (hs : GlobPlain s) (k : Text) :
    glob ('*' :: s) k = true ↔ s <:+ k := by
  have hexact : ∀ t : Text, globMatch (globItems none s) t = true ↔ t = s := by
    intro t
    have happ := globItems_append (p := []) hs
    rw [append_nil] at happ
    rw [happ, globMatch_exactly]
    simp [globItems, globMatch]
  simp only [glob, globItems, globMatch, any_eq_true, mem_tails, hexact]
  constructor
  · rintro ⟨t, ht, rfl⟩
    exact ht
  · intro h
    exact ⟨s, h, rfl⟩

namespace Redis

variable (r : Redis)

def set (k : Text) (v : RedisEntry) : Redis where
  entry := Function.update r.entry k (some v)
  keys := if k ∈ r.keys then r.keys else r.keys ++ [k]
  nodup := by
    split_ifs with h
    · exact r.nodup
    · simp only [nodup_append, r.nodup, true_and]
      refine ⟨by simp, fun a ha b hb => ?_⟩
      rintro rfl
      exact h (mem_singleton.1 hb ▸ ha)
  mem_keys := by
    intro x
    by_cases hx : x = k
    · subst hx
      split_ifs with h
      · simpa using h
      · simp
    · rw [Function.update_of_ne hx, ← r.mem_keys]
      split_ifs with h
      · rfl
      · simp [hx]

def delete (ks : List Text) : Redis where
  entry x := if x ∈ ks then none else r.entry x
  keys := r.keys.filter (· ∉ ks)
  nodup := r.nodup.filter _
  mem_keys := by
    intro x
    by_cases hx : x ∈ ks
    · simp [hx]
    · simp [hx, r.mem_keys]

def stringGet (k : Text) : Option Text :=
  match r.entry k with
  | some (.string v) => some v
  | _ => none

def hashDelete (k field : Text) : Redis :=
  match r.entry k with
  | some (.hash fields) =>
    let rest := fields.filter (·.1 ≠ field)
    if rest = [] then r.delete [k] else r.set k (.hash rest)
  | _ => r

def scan (pattern : Text) : List Text := r.keys.filter (glob pattern ·)

def empty : Redis := ⟨fun _ => none, [], nodup_nil, by simp⟩

variable {r}

@[simp] theorem entry_set (k : Text) (v : RedisEntry) :
    (r.set k v).entry = Function.update r.entry k (some v) := rfl

@[simp] theorem entry_delete (ks : List Text) (x : Text) :
    (r.delete ks).entry x = if x ∈ ks then none else r.entry x := rfl

theorem mem_scan {pattern k : Text} :
    k ∈ r.scan pattern ↔ r.entry k ≠ none ∧ glob pattern k = true := by
  rw [scan, mem_filter, r.mem_keys]

theorem hashDelete_of_none {k : Text} (h : r.entry k = none) (field : Text) :
    r.hashDelete k field = r := by
  simp only [hashDelete, h]

end Redis

end AciX
