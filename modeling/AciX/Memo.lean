import AciX.Run

/-!
# Memoised answers

A state that stores the answer to a question when it is first asked gives that answer from then on.
So after any run the answer is the one of the state in which a step first asked (`memoized_run`),
whatever the states since would answer.
-/

namespace AciX

variable {σ α β ε : Type*}

def runUntil (step : σ → α → σ) (p : σ → α → Bool) : σ → List α → σ
  | s, [] => s
  | s, a :: as => if p s a then s else runUntil step p (step s a) as

def memoized (stored : σ → Option β) (ask : σ → Except ε β) (s : σ) : Except ε β :=
  match stored s with
  | some b => .ok b
  | none => ask s

/-- Steps that ask store the answer if there is none yet. A question that fails stores nothing, and
fails in every state. -/
structure Memoizes (step : σ → α → σ) (asks : σ → α → Bool) (stored : σ → Option β)
    (ask : σ → Except ε β) : Prop where
  kept : ∀ s a b, stored s = some b → stored (step s a) = some b
  filled : ∀ s a b, stored s = none → asks s a = true → ask s = .ok b → stored (step s a) = some b
  unasked : ∀ s a, stored s = none → asks s a = false → stored (step s a) = none
  failed : ∀ s a e, stored s = none → ask s = .error e → stored (step s a) = none
  fails : ∀ s s' e, ask s = .error e → ask s' = .error e

variable {step : σ → α → σ} {asks : σ → α → Bool} {stored : σ → Option β} {ask : σ → Except ε β}

theorem memoized_of_some {s : σ} {b : β} (h : stored s = some b) :
    memoized stored ask s = .ok b := by
  unfold memoized
  rw [h]

theorem memoized_of_none {s : σ} (h : stored s = none) : memoized stored ask s = ask s := by
  unfold memoized
  rw [h]

theorem memoized_run (h : Memoizes step asks stored ask) :
    ∀ {s : σ} (as : List α), stored s = none →
      memoized stored ask (run step s as) = ask (runUntil step asks s as)
  | _, [], hs => memoized_of_none hs
  | s, a :: as, hs => by
    rw [run_cons]
    by_cases ha : asks s a = true
    · have hfirst : runUntil step asks s (a :: as) = s := if_pos ha
      rw [hfirst]
      rcases hask : ask s with e | b
      · have hnone := run_inv_of_step (I := fun s => stored s = none)
          (fun s' a' hs' => h.failed s' a' e hs' (h.fails s s' e hask)) as (h.failed s a e hs hask)
        rw [memoized_of_none hnone]
        exact h.fails s _ e hask
      · exact memoized_of_some (run_inv_of_step (I := fun s => stored s = some b)
          (fun s' a' hs' => h.kept s' a' b hs') as (h.filled s a b hs ha hask))
    · have hnext : runUntil step asks s (a :: as) = runUntil step asks (step s a) as := if_neg ha
      rw [hnext]
      exact memoized_run h as (h.unasked s a hs (by simpa using ha))

end AciX
