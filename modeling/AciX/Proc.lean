import AciX.Run

/-!
# Processes that share a state

A process does atomic operations one after the other. Two processes take turns in any order. If the
operations of one keep `P` once it holds, and the last operation of the other establishes it, then
it holds when the other has finished (`Settles.run`).
-/

namespace AciX

inductive Proc (σ ρ : Type*) where
  | ret (r : ρ)
  | op (act : σ → σ) (next : σ → Proc σ ρ)

namespace Proc

variable {σ ρ ρ' : Type*}

def step : Proc σ ρ → σ → Proc σ ρ × σ
  | .ret r, s => (.ret r, s)
  | .op act next, s => (next s, act s)

def exec : Proc σ ρ → σ → ρ × σ
  | .ret r, s => (r, s)
  | .op act next, s => exec (next s) (act s)

def Finished (p : Proc σ ρ) : Prop := ∃ r, p = .ret r

def Keeps (I P : σ → Prop) : Proc σ ρ → Prop
  | .ret _ => True
  | .op act next => ∀ s, I s → I (act s) ∧ (P s → P (act s)) ∧ Keeps I P (next s)

/-- The process has `n` operations left, and within `I` the last of them establishes `P`. -/
def Ensures (I P : σ → Prop) : ℕ → Proc σ ρ → Prop
  | 0, p => p.Finished
  | _ + 1, .ret _ => False
  | n + 1, .op act next => ∀ s, I s → I (act s) ∧ (n = 0 → P (act s)) ∧ Ensures I P n (next s)

structure Config (σ ρ ρ' : Type*) where
  state : σ
  left : Proc σ ρ
  right : Proc σ ρ'

def turn (c : Config σ ρ ρ') (x : Bool) : Config σ ρ ρ' :=
  if x then { c with state := (c.left.step c.state).2, left := (c.left.step c.state).1 }
  else { c with state := (c.right.step c.state).2, right := (c.right.step c.state).1 }

variable {I P : σ → Prop} {p : Proc σ ρ}

theorem Finished.step (h : p.Finished) (s : σ) : p.step s = (p, s) := by
  obtain ⟨r, rfl⟩ := h
  rfl

theorem Keeps.step (h : p.Keeps I P) {s : σ} (hs : I s) :
    I (p.step s).2 ∧ (P s → P (p.step s).2) ∧ (p.step s).1.Keeps I P := by
  rcases p with r | ⟨act, next⟩
  · exact ⟨hs, id, trivial⟩
  · exact h s hs

theorem Ensures.step {n : ℕ} (h : p.Ensures I P (n + 1)) {s : σ} (hs : I s) :
    I (p.step s).2 ∧ (n = 0 → P (p.step s).2) ∧ (p.step s).1.Ensures I P n := by
  rcases p with r | ⟨act, next⟩
  · exact h.elim
  · exact h s hs

theorem Ensures.finished_iff {n : ℕ} (h : p.Ensures I P n) : p.Finished ↔ n = 0 := by
  rcases n with _ | n
  · exact iff_of_true h rfl
  · refine iff_of_false ?_ (by omega)
    rintro ⟨r, rfl⟩
    exact h

variable {c : Config σ ρ ρ'}

variable (I P) in
structure Settles (c : Config σ ρ ρ') : Prop where
  inv : I c.state
  left : c.left.Keeps I P
  right : ∃ n, c.right.Ensures I P n ∧ (n = 0 → P c.state)

theorem Settles.turn (h : Settles I P c) (x : Bool) : Settles I P (turn c x) := by
  obtain ⟨hI, hleft, n, hright, hP⟩ := h
  cases x
  · rcases n with _ | n
    · have hstep := Finished.step hright c.state
      refine ⟨?_, hleft, 0, ?_, fun _ => ?_⟩
      · simpa [Proc.turn, hstep] using hI
      · simpa [Proc.turn, hstep] using hright
      · simpa [Proc.turn, hstep] using hP rfl
    · obtain ⟨hI', hP', hright'⟩ := Ensures.step hright hI
      exact ⟨hI', hleft, n, hright', hP'⟩
  · obtain ⟨hI', hP', hleft'⟩ := hleft.step hI
    exact ⟨hI', hleft', n, hright, fun hn => hP' (hP hn)⟩

theorem Settles.run (h : Settles I P c) {turns : List Bool}
    (hfin : (run Proc.turn c turns).right.Finished) :
    I (run Proc.turn c turns).state ∧ P (run Proc.turn c turns).state := by
  obtain ⟨hI, -, n, hright, hP⟩ := run_inv_of_step (fun _ x hc => hc.turn x) turns h
  exact ⟨hI, hP (hright.finished_iff.1 hfin)⟩

theorem run_finished (hleft : c.left.Finished) (hright : c.right.Finished) :
    ∀ turns : List Bool, AciX.run turn c turns = c
  | [] => rfl
  | x :: turns => by
    have hturn : turn c x = c := by
      cases x
      · simp [turn, hright.step]
      · simp [turn, hleft.step]
    rw [run_cons, hturn]
    exact run_finished hleft hright turns

end Proc

end AciX
