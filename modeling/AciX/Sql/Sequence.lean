import Mathlib

/-!
# Sequences

`NEXT VALUE FOR` a sequence hands out one number after the other and starts again at the smallest
after the greatest. A loop that asks until a number is not taken ends, as long as fewer numbers are
taken than there are.
-/

namespace AciX.Sql

/-- The value after `s` of a sequence of type `INT` declared `CYCLE`. -/
def nextValue (s : ℤ) : ℤ := if s = 2147483647 then -2147483648 else s + 1

def InRange (s : ℤ) : Prop := -2147483648 ≤ s ∧ s ≤ 2147483647

instance (s : ℤ) : Decidable (InRange s) := inferInstanceAs (Decidable (_ ∧ _))

theorem InRange.nextValue {s : ℤ} (h : InRange s) : InRange (nextValue s) := by
  unfold InRange Sql.nextValue at *
  split_ifs <;> omega

section Allocate

variable {α : Type*} (step : α → α) (taken : α → Bool)

def allocate : ℕ → α → α
  | 0, s => s
  | n + 1, s => if taken s then allocate n (step s) else s

variable {step taken}

theorem taken_of_taken_allocate :
    ∀ {n : ℕ} {s : α}, taken (allocate step taken n s) = true → ∀ i ≤ n, taken (step^[i] s) = true
  | 0, s, h, i, hi => by
    obtain rfl : i = 0 := by omega
    exact h
  | n + 1, s, h, i, hi => by
    unfold allocate at h
    by_cases hs : taken s = true
    · rw [if_pos hs] at h
      rcases i with _ | i
      · exact hs
      · exact taken_of_taken_allocate h i (by omega)
    · rw [if_neg hs] at h
      exact absurd h hs

theorem allocate_of_step {P : α → Prop} (hstep : ∀ a, P a → P (step a)) :
    ∀ {n : ℕ} {s : α}, P s → P (allocate step taken n s)
  | 0, _, h => h
  | n + 1, s, h => by
    unfold allocate
    split_ifs
    · exact allocate_of_step hstep (hstep s h)
    · exact h

theorem not_taken_allocate {l : List α} {n : ℕ} {s : α} (hl : ∀ a, taken a = true → a ∈ l)
    (hn : l.length ≤ n) (hinj : ∀ i ≤ n, ∀ j ≤ n, step^[i] s = step^[j] s → i = j) :
    taken (allocate step taken n s) = false := by
  by_contra h
  rw [Bool.not_eq_false] at h
  have hsub : (List.range (n + 1)).map (fun i => step^[i] s) ⊆ l := by
    intro a ha
    obtain ⟨i, hi, rfl⟩ := List.mem_map.1 ha
    have : i < n + 1 := List.mem_range.1 hi
    exact hl _ (taken_of_taken_allocate h i (by omega))
  have hnd : ((List.range (n + 1)).map fun i => step^[i] s).Nodup := by
    refine List.Nodup.map_on (fun i hi j hj hij => ?_) List.nodup_range
    rw [List.mem_range] at hi hj
    exact hinj i (by omega) j (by omega) hij
  have hlen := (hnd.subperm hsub).length_le
  simp only [List.length_map, List.length_range] at hlen
  omega

end Allocate

theorem iterate_nextValue {s : ℤ} (h : InRange s) :
    ∀ i : ℕ, nextValue^[i] s = (s + 2147483648 + i) % 4294967296 - 2147483648
  | 0 => by
    unfold InRange at h
    show s = _
    omega
  | i + 1 => by
    rw [Function.iterate_succ_apply', iterate_nextValue h i]
    unfold nextValue
    push_cast
    split_ifs <;> omega

theorem iterate_nextValue_inj {s : ℤ} (h : InRange s) {n : ℕ} (hn : n < 4294967296) :
    ∀ i ≤ n, ∀ j ≤ n, nextValue^[i] s = nextValue^[j] s → i = j := by
  intro i hi j hj hij
  rw [iterate_nextValue h, iterate_nextValue h] at hij
  omega

end AciX.Sql
