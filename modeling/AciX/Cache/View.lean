import AciX.Cache.Bulk

/-!
# Entries seen through a view

A reader may be shown only a part of an entity. `Shows` says of a store that every entry shows what
the table does. Lookups keep it, and a change of the table keeps it exactly if it does not show
under any key that has an entry (`Shows.write_iff`).
-/

namespace AciX

variable {κ ε α : Type*} {view : ε → α}

def Entry.seen (view : ε → α) : Entry ε → Option α
  | .entity e => some (view e)
  | .notInDB => none

namespace EntityCache

variable {fetch fetch' : κ → Option ε} {s : Store κ ε}

def Shows (view : ε → α) (fetch : κ → Option ε) (s : Store κ ε) : Prop :=
  ∀ k v, s k = some v → v.seen view = (fetch k).map view

theorem seen_entryOf (o : Option ε) : (entryOf o).seen view = o.map view := by
  cases o <;> rfl

theorem map_cached {k : κ} {v : Entry ε} (h : s k = some v) :
    (cached s k).map view = v.seen view := by
  unfold cached
  rw [h]
  cases v <;> rfl

theorem shows_iff : Shows view fetch s ↔
    ∀ k, (answer fetch false s k).map view = (fetch k).map view := by
  constructor
  · intro h k
    rcases hs : s k with _ | v
    · rw [answer, if_pos (.inr hs)]
    · rw [answer, if_neg (by simp [hs]), map_cached hs]
      exact h k v hs
  · intro h k v hv
    have hk := h k
    rw [answer, if_neg (by simp [hv]), map_cached hv] at hk
    exact hk

theorem Shows.write_iff (h : Shows view fetch s) : Shows view fetch' s ↔
    ∀ k, s k ≠ none → (fetch' k).map view = (fetch k).map view := by
  constructor
  · intro h' k hk
    obtain ⟨v, hv⟩ := Option.ne_none_iff_exists'.1 hk
    exact (h' k v hv).symm.trans (h k v hv)
  · intro h' k v hv
    exact (h k v hv).trans (h' k (by simp [hv])).symm

variable [DecidableEq κ]

theorem Shows.refreshed (h : Shows view fetch s) (force : Bool) (keys : List κ) :
    Shows view fetch (refreshed fetch force keys s) := by
  intro k v hv
  unfold EntityCache.refreshed at hv
  split_ifs at hv
  · obtain rfl := Option.some.inj hv
    exact seen_entryOf _
  · exact h k v hv

theorem refreshed_true (k : κ) :
    EntityCache.refreshed fetch true [k] s = put s k (entryOf (fetch k)) := by
  funext k'
  by_cases hk : k' = k
  · subst hk
    simp [EntityCache.refreshed]
  · simp [EntityCache.refreshed, hk, put_of_ne hk]

theorem refreshed_ne_none {force : Bool} {k : κ} :
    EntityCache.refreshed fetch force [k] s k ≠ none := by
  rcases hs : s k with _ | v
  · simp [EntityCache.refreshed, hs]
  · cases force <;> simp [EntityCache.refreshed, hs]

theorem Shows.write_put (h : Shows view fetch s) {k : κ} {v : Entry ε}
    (hv : v.seen view = (fetch' k).map view)
    (hother : ∀ k', k' ≠ k → (fetch' k').map view = (fetch k').map view) :
    Shows view fetch' (put s k v) := by
  intro k' v' hv'
  by_cases hk : k' = k
  · subst hk
    rw [put_self, Option.some.injEq] at hv'
    exact hv' ▸ hv
  · rw [put_of_ne hk] at hv'
    exact (h k' v' hv').trans (hother k' hk).symm

end EntityCache

end AciX
