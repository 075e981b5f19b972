import Mathlib

/-!
# Stable sorting

A stable sort by a total preorder swaps two elements exactly if the first one is greater, so what
holds between any two elements of the result can be read off any two of the list
(`pairwise_insertionSort_iff`). A sum is the same term by term if its terms are not greater and the
sums agree (`map_eq_of_sum_eq`).
-/

namespace AciX

open List

variable {α : Type*} {r : α → α → Prop} [DecidableRel r] {R : α → α → Prop}

def InOrder (r : α → α → Prop) [DecidableRel r] (R : α → α → Prop) (a b : α) : Prop :=
  if r a b then R a b else R b a

theorem pairwise_orderedInsert_iff (htrans : ∀ a b c, r a b → r b c → r a c) (a : α) :
    ∀ {l : List α}, l.Pairwise r →
      ((l.orderedInsert r a).Pairwise R ↔ l.Pairwise R ∧ ∀ b ∈ l, InOrder r R a b)
  | [], _ => by simp
  | b :: l, hl => by
    obtain ⟨hb, hl⟩ := pairwise_cons.1 hl
    have ih := pairwise_orderedInsert_iff htrans a hl
    rw [orderedInsert_cons]
    split_ifs with hab
    · have hall : ∀ c ∈ b :: l, r a c := by
        intro c hc
        rcases mem_cons.1 hc with rfl | hc
        · exact hab
        · exact htrans a b c hab (hb c hc)
      rw [pairwise_cons, and_comm]
      refine and_congr_right fun _ => forall₂_congr fun c hc => ?_
      rw [InOrder, if_pos (hall c hc)]
    · have hhead : InOrder r R a b ↔ R b a := by rw [InOrder, if_neg hab]
      rw [pairwise_cons, pairwise_cons, ih, forall_mem_cons, hhead]
      simp only [mem_orderedInsert, forall_eq_or_imp]
      tauto

theorem pairwise_insertionSort_iff (htotal : ∀ a b, r a b ∨ r b a)
    (htrans : ∀ a b c, r a b → r b c → r a c) :
    ∀ l : List α, (l.insertionSort r).Pairwise R ↔ l.Pairwise (InOrder r R)
  | [] => by simp
  | a :: l => by
    have : Std.Total r := ⟨htotal⟩
    have : IsTrans α r := ⟨htrans⟩
    have hsorted : (l.insertionSort r).Pairwise r := pairwise_insertionSort r l
    rw [insertionSort_cons, pairwise_orderedInsert_iff htrans a hsorted,
      pairwise_insertionSort_iff htotal htrans l, pairwise_cons, and_comm]
    simp only [mem_insertionSort]

theorem map_eq_of_sum_eq {f g : α → ℕ} : ∀ {l : List α}, (∀ a ∈ l, f a ≤ g a) →
    (l.map f).sum = (l.map g).sum → ∀ a ∈ l, f a = g a
  | [], _, _, a, ha => absurd ha not_mem_nil
  | b :: l, h, hsum, a, ha => by
    have hhead := h b mem_cons_self
    have hrest : ∀ a ∈ l, f a ≤ g a := fun a ha => h a (mem_cons_of_mem b ha)
    have htail : (l.map f).sum ≤ (l.map g).sum := sum_le_sum hrest
    rw [map_cons, map_cons, sum_cons, sum_cons] at hsum
    rcases mem_cons.1 ha with rfl | ha
    · omega
    · exact map_eq_of_sum_eq hrest (by omega) a ha

end AciX
