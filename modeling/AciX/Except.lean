import Mathlib

/-!
# Computations that may throw

A sequence of fallible computations succeeds exactly when each of them does.
-/

namespace AciX

variable {ε α β : Type} {f : α → Except ε β}

theorem bind_ok_iff {x : Except ε α} {b : β} :
    (x >>= f) = .ok b ↔ ∃ a, x = .ok a ∧ f a = .ok b := by
  rcases x with e | a
  · constructor
    · intro h
      cases h
    · rintro ⟨a, h, -⟩
      cases h
  · constructor
    · exact fun h => ⟨a, rfl, h⟩
    · rintro ⟨a', h, hf⟩
      cases h
      exact hf

theorem exists_map_ok_iff {x : Except ε α} {f : α → β} :
    (∃ b, x.map f = .ok b) ↔ ∃ a, x = .ok a := by
  rcases x with e | a
  · exact ⟨fun ⟨b, h⟩ => (by cases h), fun ⟨a, h⟩ => (by cases h)⟩
  · exact ⟨fun _ => ⟨a, rfl⟩, fun _ => ⟨f a, rfl⟩⟩

theorem mapM_ok_iff :
    ∀ {l : List α} {r : List β}, l.mapM f = .ok r ↔ List.Forall₂ (fun a b => f a = .ok b) l r
  | [], r => by
    rw [List.mapM_nil, List.forall₂_nil_left_iff]
    exact ⟨fun h => by cases h; rfl, fun h => by subst h; rfl⟩
  | a :: l, r => by
    rw [List.mapM_cons, bind_ok_iff, List.forall₂_cons_left_iff]
    constructor
    · rintro ⟨b, hb, h⟩
      obtain ⟨bs, hbs, h⟩ := bind_ok_iff.1 h
      cases h
      exact ⟨b, bs, hb, mapM_ok_iff.1 hbs, rfl⟩
    · rintro ⟨b, bs, hb, hbs, rfl⟩
      exact ⟨b, hb, bind_ok_iff.2 ⟨bs, mapM_ok_iff.2 hbs, rfl⟩⟩

theorem mem_of_mapM_ok {l : List α} {r : List β} (h : l.mapM f = .ok r)
    {b : β} (hb : b ∈ r) : ∃ a ∈ l, f a = .ok b := by
  rw [mapM_ok_iff] at h
  induction h with
  | nil => simp at hb
  | cons ha _ ih =>
    rcases List.mem_cons.1 hb with rfl | hb
    · exact ⟨_, by simp, ha⟩
    · obtain ⟨a, hal, h⟩ := ih hb
      exact ⟨a, by simp [hal], h⟩

theorem exists_mapM_ok_iff {l : List α} : (∃ r, l.mapM f = .ok r) ↔ ∀ a ∈ l, ∃ b, f a = .ok b := by
  induction l with
  | nil => exact ⟨fun _ a h => by simp at h, fun _ => ⟨[], rfl⟩⟩
  | cons a l ih =>
    constructor
    · rintro ⟨r, h⟩ a' ha'
      rw [mapM_ok_iff, List.forall₂_cons_left_iff] at h
      obtain ⟨b, bs, hb, hbs, -⟩ := h
      rcases List.mem_cons.1 ha' with rfl | ha'
      · exact ⟨b, hb⟩
      · exact ih.1 ⟨bs, mapM_ok_iff.2 hbs⟩ a' ha'
    · intro h
      obtain ⟨b, hb⟩ := h a (by simp)
      obtain ⟨bs, hbs⟩ := ih.2 fun a' ha' => h a' (by simp [ha'])
      exact ⟨b :: bs, mapM_ok_iff.2 (.cons hb (mapM_ok_iff.1 hbs))⟩

end AciX
