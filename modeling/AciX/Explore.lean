import Mathlib

/-!
# Building what a state holds, depth first

A visit writes the content of one key into the state and says where to go next; `explore` goes
there, one after the other. If a visit of `i` writes only the key of `i`, and goes to all keys its
content refers to, then afterwards the content of `i` is right, and so is that of every key it leads
to (`explore_fine`).
-/

namespace AciX

variable {ι κ γ σ : Type}

/-- Visits `i` and then everything the visit asks for; `none` if the nesting goes too deep. -/
def explore (visit : ι → σ → σ × List ι) : ℕ → ι → σ → Option σ
  | 0, _, _ => none
  | depth + 1, i, s =>
    (visit i s).2.foldlM (fun s j => explore visit depth j s) (visit i s).1

section Fine

variable (content : σ → κ → Option γ) (valid : κ → γ → Prop) (next : κ → γ → κ → Prop)

inductive Fine (s : σ) : κ → Prop
  | mk {k : κ} {c : γ} (hc : content s k = some c) (hv : valid k c)
      (hn : ∀ k', next k c k' → Fine s k') : Fine s k

def Touched (s s' : σ) : Prop :=
  ∀ k, content s' k = content s k ∨ Fine content valid next s' k

variable {content valid next} {s s' s'' : σ}

theorem Fine.touched {k : κ} (h : Fine content valid next s k)
    (ht : Touched content valid next s s') : Fine content valid next s' k := by
  induction h with
  | mk hc hv _ ih =>
    rename_i k c _
    rcases ht k with hk | hk
    · exact .mk (hk.trans hc) hv ih
    · exact hk

theorem Touched.refl (s : σ) : Touched content valid next s s := fun _ => .inl rfl

theorem Touched.trans (h : Touched content valid next s s')
    (h' : Touched content valid next s' s'') : Touched content valid next s s'' := by
  intro k
  rcases h' k with hk | hk
  · rcases h k with hk' | hk'
    · exact .inl (hk.trans hk')
    · exact .inr (hk'.touched h')
  · exact .inr hk

variable (content valid next) in
structure Visits (key : ι → κ) (rank : κ → ℕ) (ok : ι → Prop) (inv : σ → Prop)
    (visit : ι → σ → σ × List ι) : Prop where
  keeps : ∀ {i s}, ok i → inv s → inv (visit i s).1
  writes : ∀ {i s}, ok i → inv s → ∃ c, content (visit i s).1 (key i) = some c ∧
    valid (key i) c ∧ ∀ k, next (key i) c k → ∃ j ∈ (visit i s).2, key j = k
  frame : ∀ {i s k}, ok i → inv s → k ≠ key i → content (visit i s).1 k = content s k
  goes : ∀ {i s j}, ok i → inv s → j ∈ (visit i s).2 → ok j ∧ rank (key j) < rank (key i)

variable {key : ι → κ} {rank : κ → ℕ} {ok : ι → Prop} {inv : σ → Prop}
  {visit : ι → σ → σ × List ι}

theorem Visits.and (h : Visits content valid next key rank ok inv visit) (valid' : κ → γ → Prop)
    (inv' : σ → Prop)
    (hwrites : ∀ i s c, ok i → inv s → content (visit i s).1 (key i) = some c → valid' (key i) c)
    (hkeeps : ∀ i s, ok i → inv s → inv' s → inv' (visit i s).1) :
    Visits content (fun k c => valid k c ∧ valid' k c) next key rank ok
      (fun s => inv s ∧ inv' s) visit where
  keeps hi hs := ⟨h.keeps hi hs.1, hkeeps _ _ hi hs.1 hs.2⟩
  writes hi hs := by
    obtain ⟨c, hc, hv, hnext⟩ := h.writes hi hs.1
    exact ⟨c, hc, ⟨hv, hwrites _ _ c hi hs.1 hc⟩, hnext⟩
  frame hi hs hk := h.frame hi hs.1 hk
  goes hi hs hj := h.goes hi hs.1 hj

theorem foldlM_fine {call : σ → ι → Option σ} : ∀ {js : List ι} {s : σ},
    (∀ j ∈ js, ∀ s, inv s → ∃ s', call s j = some s' ∧ inv s' ∧
      Fine content valid next s' (key j) ∧ Touched content valid next s s') → inv s →
    ∃ s', js.foldlM call s = some s' ∧ inv s' ∧
      (∀ j ∈ js, Fine content valid next s' (key j)) ∧ Touched content valid next s s'
  | [], s, _, hs => ⟨s, rfl, hs, by simp, .refl s⟩
  | j :: js, s, h, hs => by
    obtain ⟨s₁, h₁, hs₁, hf₁, ht₁⟩ := h j (by simp) s hs
    obtain ⟨s₂, h₂, hs₂, hf₂, ht₂⟩ := foldlM_fine (fun k hk => h k (List.mem_cons_of_mem j hk)) hs₁
    refine ⟨s₂, ?_, hs₂, ?_, ht₁.trans ht₂⟩
    · rw [List.foldlM_cons, h₁]
      exact h₂
    · intro k hk
      rcases List.mem_cons.1 hk with rfl | hk
      · exact hf₁.touched ht₂
      · exact hf₂ k hk

theorem explore_fine (hvisit : Visits content valid next key rank ok inv visit) :
    ∀ {depth : ℕ} {i : ι} {s : σ}, ok i → inv s → rank (key i) < depth →
      ∃ s', explore visit depth i s = some s' ∧ inv s' ∧
        Fine content valid next s' (key i) ∧ Touched content valid next s s'
  | 0, _, _, _, _, h => absurd h (Nat.not_lt_zero _)
  | depth + 1, i, s, hi, hs, h => by
    obtain ⟨c, hc, hv, hnext⟩ := hvisit.writes hi hs
    have hcalls : ∀ j ∈ (visit i s).2, ∀ s, inv s → ∃ s', explore visit depth j s = some s' ∧
        inv s' ∧ Fine content valid next s' (key j) ∧ Touched content valid next s s' := by
      intro j hj t ht
      obtain ⟨hj, hlt⟩ := hvisit.goes hi hs hj
      exact explore_fine hvisit hj ht (by omega)
    obtain ⟨s', hs', hinv, hfine, ht⟩ := foldlM_fine hcalls (hvisit.keeps hi hs)
    have hkey : Fine content valid next s' (key i) := by
      rcases ht (key i) with hk | hk
      · refine .mk (hk.trans hc) hv fun k hk => ?_
        obtain ⟨j, hj, rfl⟩ := hnext k hk
        exact hfine j hj
      · exact hk
    refine ⟨s', hs', hinv, hkey, fun k => ?_⟩
    by_cases hk : k = key i
    · exact .inr (hk ▸ hkey)
    · rcases ht k with h' | h'
      · exact .inl (h'.trans (hvisit.frame hi hs hk))
      · exact .inr h'

end Fine

theorem explore_keeps (rank : ι → ℕ) (ok : ι → Prop) (inv : σ → Prop) {visit : ι → σ → σ × List ι}
    (hkeeps : ∀ i s, ok i → inv s → inv (visit i s).1)
    (hgoes : ∀ i s j, ok i → inv s → j ∈ (visit i s).2 → ok j ∧ rank j < rank i)
    {depth : ℕ} {i : ι} {s : σ} (hi : ok i) (hs : inv s) (h : rank i < depth) :
    ∃ s', explore visit depth i s = some s' ∧ inv s' := by
  have hvisits : Visits (fun _ _ => some ()) (fun _ _ => True) (fun _ _ _ => False) id rank ok inv
      visit :=
    ⟨hkeeps _ _, fun _ _ => ⟨(), rfl, trivial, fun _ h => h.elim⟩, fun _ _ _ => rfl, hgoes _ _ _⟩
  obtain ⟨s', hs', hinv, -, -⟩ := explore_fine hvisits hi hs h
  exact ⟨s', hs', hinv⟩

end AciX
