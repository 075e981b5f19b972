import Mathlib

/-!
# Working off what is still to be done

A program that calls itself for one item after the other works off a list: the first item may change
the state and leads to further items, which are put in front of the rest. Every run ends if items
lead to items of lower rank only (`ends_of_rank`), and not if some item can always be kept going.
-/

namespace AciX

variable {σ ι : Type}

structure Agenda (σ ι : Type) where
  state : σ
  todo : List ι
  done : List ι := []

namespace Agenda

variable (visit : ι → σ → σ → List ι → Prop)

inductive Step : Agenda σ ι → Agenda σ ι → Prop
  | mk {i : ι} {s s' : σ} {next todo done : List ι} (h : visit i s s' next) :
      Step ⟨s, i :: todo, done⟩ ⟨s', next ++ todo, i :: done⟩

def Ends (a : Agenda σ ι) : Prop :=
  ¬ ∃ runs : ℕ → Agenda σ ι, runs 0 = a ∧ ∀ n, Step visit (runs n) (runs (n + 1))

variable {visit}

theorem ends_iff_acc {a : Agenda σ ι} : Ends visit a ↔ Acc (fun b a => Step visit a b) a := by
  have h := not_acc_iff_exists_descending_chain (r := fun b a : Agenda σ ι => Step visit a b) (x :=
    a)
  exact not_iff_comm.1 h

section Rank

variable {ok : ι → Prop} {inv : σ → Prop} {rank : ι → ℕ}

theorem acc_cons (hvisit : ∀ i s s' next, ok i → inv s → visit i s s' next →
      inv s' ∧ ∀ j ∈ next, ok j ∧ rank j < rank i) {todo : List ι}
    (htodo : ∀ s done, inv s → Acc (fun b a => Step visit a b) ⟨s, todo, done⟩) :
    ∀ (n : ℕ) {i : ι}, rank i < n → ok i → ∀ s done, inv s →
      Acc (fun b a => Step visit a b) ⟨s, i :: todo, done⟩
  | 0, _, hlt, _, _, _, _ => absurd hlt (Nat.not_lt_zero _)
  | n + 1, i, hlt, hi, s, done, hs => by
    refine .intro _ fun b hb => ?_
    cases hb with
    | mk h =>
      obtain ⟨hs', hnext⟩ := hvisit _ _ _ _ hi hs h
      have hlist : ∀ next : List ι, (∀ j ∈ next, ok j ∧ rank j < rank i) → ∀ s done, inv s →
          Acc (fun b a => Step visit a b) ⟨s, next ++ todo, done⟩ := by
        intro next
        induction next with
        | nil => exact fun _ => htodo
        | cons j next ih =>
          intro hj
          obtain ⟨hok, hrank⟩ := hj j List.mem_cons_self
          exact acc_cons hvisit (ih fun k hk => hj k (List.mem_cons_of_mem _ hk)) n (by omega) hok
      exact hlist _ hnext _ _ hs'

variable (ok inv rank) in
theorem ends_of_rank (hvisit : ∀ i s s' next, ok i → inv s → visit i s s' next →
      inv s' ∧ ∀ j ∈ next, ok j ∧ rank j < rank i) {s : σ} {i : ι} (hs : inv s) (hi : ok i) :
    Ends visit ⟨s, [i], []⟩ := by
  refine ends_iff_acc.2 (acc_cons hvisit (fun s done _ => ?_) _ (Nat.lt_succ_self _) hi s [] hs)
  exact .intro _ fun b hb => nomatch hb

end Rank

theorem not_ends_of_forever (bad : Agenda σ ι → Prop)
    (h : ∀ a, bad a → ∃ b, Step visit a b ∧ bad b) {a : Agenda σ ι} (ha : bad a) :
    ¬ Ends visit a := by
  rw [ends_iff_acc]
  intro hacc
  induction hacc with
  | intro a _ ih =>
    obtain ⟨b, hb, hbad⟩ := h a ha
    exact ih b hb hbad

theorem reached_inv {I : Agenda σ ι → Prop} (hstep : ∀ a b, I a → Step visit a b → I b)
    {a b : Agenda σ ι} (h : Relation.ReflTransGen (Step visit) a b) (ha : I a) : I b := by
  induction h with
  | refl => exact ha
  | tail _ hb ih => exact hstep _ _ ih hb

end Agenda

end AciX
