import Mathlib

/-!
# Runs

A run folds a step function over a list of steps. What holds at the start and is kept by every
step holds at the end; a step may need to meet a condition on the state it is taken in.
-/

namespace AciX

variable {σ α : Type*} {step : σ → α → σ}

def run (step : σ → α → σ) (s : σ) (as : List α) : σ := as.foldl step s

@[simp] theorem run_nil (step : σ → α → σ) (s : σ) : run step s [] = s := rfl

@[simp] theorem run_cons (step : σ → α → σ) (s : σ) (a : α) (as : List α) :
    run step s (a :: as) = run step (step s a) as := rfl

theorem run_append (step : σ → α → σ) (s : σ) (as bs : List α) :
    run step s (as ++ bs) = run step (run step s as) bs :=
  List.foldl_append

def RunOk (step : σ → α → σ) (ok : σ → α → Prop) : σ → List α → Prop
  | _, [] => True
  | s, a :: as => ok s a ∧ RunOk step ok (step s a) as

theorem runOk_iff_forall {ok : σ → α → Prop} : ∀ {s : σ} {as : List α}, RunOk step ok s as ↔
      ∀ before a, before ++ [a] <+: as → ok (run step s before) a
  | s, [] => by simp [RunOk]
  | s, b :: as => by
    rw [RunOk, runOk_iff_forall (s := step s b)]
    constructor
    · rintro ⟨hb, h⟩ before a hpre
      rcases before with _ | ⟨c, before⟩
      · cases (List.cons_prefix_cons.1 hpre).1
        exact hb
      · obtain ⟨rfl, hrest⟩ := List.cons_prefix_cons.1 hpre
        exact h before a hrest
    · intro h
      refine ⟨h [] b (List.prefix_append [b] as), fun before a hpre => ?_⟩
      exact h (b :: before) a (List.cons_prefix_cons.2 ⟨rfl, hpre⟩)

theorem runOk_of_forall {ok : α → Prop} :
    ∀ {s : σ} {as : List α}, (∀ a ∈ as, ok a) → RunOk step (fun _ => ok) s as
  | _, [], _ => trivial
  | _, a :: _, h =>
    ⟨h a List.mem_cons_self, runOk_of_forall fun b hb => h b (List.mem_cons_of_mem a hb)⟩

theorem run_inv {ok : σ → α → Prop} {I : σ → Prop} (hstep : ∀ s a, I s → ok s a → I (step s a)) :
    ∀ {s : σ} {as : List α}, I s → RunOk step ok s as → I (run step s as)
  | _, [], hI, _ => hI
  | s, a :: as, hI, h => by
    rw [run_cons]
    exact run_inv hstep (hstep s a hI h.1) h.2

theorem run_inv_of_step {I : σ → Prop} (hstep : ∀ s a, I s → I (step s a)) :
    ∀ {s : σ} (as : List α), I s → I (run step s as)
  | _, [], hI => hI
  | s, a :: as, hI => run_inv_of_step hstep as (hstep s a hI)

theorem runOk_iff {ok : σ → α → Prop} {I P : σ → Prop}
    (hinv : ∀ s a, I s → I (step s a)) (hstep : ∀ s a, I s → P s → (P (step s a) ↔ ok s a)) :
    ∀ {s : σ} {as : List α}, I s → P s → (RunOk step ok s as ↔ ∀ n, P (run step s (as.take n)))
  | s, [], _, hP => by simp [RunOk, hP]
  | s, a :: as, hI, hP => by
    have ih : P (step s a) → (RunOk step ok (step s a) as ↔
        ∀ n, P (run step (step s a) (as.take n))) := runOk_iff hinv hstep (hinv s a hI)
    constructor
    · rintro ⟨ha, h⟩ n
      have hP' := (hstep s a hI hP).2 ha
      rcases n with _ | n
      · exact hP
      · exact (ih hP').1 h n
    · intro h
      have hP' : P (step s a) := h 1
      exact ⟨(hstep s a hI hP).1 hP', (ih hP').2 fun n => h (n + 1)⟩

end AciX
