import AciX.Run

/-!
# Two transactions, each a read and then a write

A transaction reads a shared state once, and later writes from what it read. Of two that take turns
either one ends before the other begins (`interleave_serial`), or both have read before either
writes (`interleave_overlap`).
-/

namespace AciX

structure Txn (σ ρ : Type*) where
  load : σ → σ × ρ
  store : ρ → σ → σ

namespace Txn

variable {σ ρ : Type*}

def exec (t : Txn σ ρ) (s : σ) : σ := t.store (t.load s).2 (t.load s).1

inductive Phase (ρ : Type*) where
  | waiting
  | loaded (r : ρ)
  | done

structure Config (σ ρ : Type*) where
  state : σ
  phase : Bool → Phase ρ

variable (t : Bool → Txn σ ρ)

def turn (c : Config σ ρ) (x : Bool) : Config σ ρ :=
  match c.phase x with
  | .waiting =>
    { state := ((t x).load c.state).1
      phase := Function.update c.phase x (.loaded ((t x).load c.state).2) }
  | .loaded r =>
    { state := (t x).store r c.state
      phase := Function.update c.phase x .done }
  | .done => c

def interleave (s : σ) (turns : List Bool) : Config σ ρ :=
  run (turn t) { state := s, phase := fun _ => .waiting } turns

def Complete (turns : List Bool) : Prop := ∀ x, 2 ≤ turns.count x

def Serial (turns : List Bool) : Prop := ∃ x rest, turns = x :: x :: rest

variable {t} {c : Config σ ρ} {x : Bool} {r : ρ}

theorem turn_waiting (h : c.phase x = .waiting) : turn t c x =
    { state := ((t x).load c.state).1
      phase := Function.update c.phase x (.loaded ((t x).load c.state).2) } := by
  simp only [turn, h]

theorem turn_loaded (h : c.phase x = .loaded r) : turn t c x =
    { state := (t x).store r c.state, phase := Function.update c.phase x .done } := by
  simp only [turn, h]

theorem turn_done (h : c.phase x = .done) : turn t c x = c := by
  simp only [turn, h]

theorem run_done (hx : c.phase x = .done) (hy : c.phase (!x) = .done) :
    ∀ turns : List Bool, run (turn t) c turns = c
  | [] => rfl
  | z :: turns => by
    have hz : c.phase z = .done := by
      rcases Bool.eq_or_eq_not z x with rfl | rfl
      · exact hx
      · exact hy
    rw [run_cons, turn_done hz]
    exact run_done hx hy turns

theorem run_loaded (hx : c.phase x = .loaded r) (hy : c.phase (!x) = .done) :
    ∀ {turns : List Bool}, 1 ≤ turns.count x → (run (turn t) c turns).state = (t x).store r c.state
  | [], h => by simp at h
  | z :: turns, h => by
    rw [run_cons]
    rcases Bool.eq_or_eq_not z x with rfl | rfl
    · rw [turn_loaded hx, run_done (x := z)]
      · simp
      · simpa using hy
    · rw [turn_done hy]
      exact run_loaded hx hy (by simpa using h)

theorem run_waiting (hx : c.phase x = .waiting) (hy : c.phase (!x) = .done) :
    ∀ {turns : List Bool}, 2 ≤ turns.count x → (run (turn t) c turns).state = (t x).exec c.state
  | [], h => by simp at h
  | z :: turns, h => by
    rw [run_cons]
    rcases Bool.eq_or_eq_not z x with rfl | rfl
    · rw [turn_waiting hx]
      refine run_loaded (x := z) (by simp) (by simpa using hy) ?_
      rw [List.count_cons_self] at h
      omega
    · rw [turn_done hy]
      exact run_waiting hx hy (by simpa using h)

theorem run_both_loaded {r' : ρ} (hx : c.phase x = .loaded r) (hy : c.phase (!x) = .loaded r') :
    ∀ {turns : List Bool}, 1 ≤ turns.count x → 1 ≤ turns.count (!x) →
      (run (turn t) c turns).state = (t !x).store r' ((t x).store r c.state) ∨
        (run (turn t) c turns).state = (t x).store r ((t !x).store r' c.state)
  | [], h, _ => by simp at h
  | z :: turns, h, h' => by
    rw [run_cons]
    rcases Bool.eq_or_eq_not z x with rfl | rfl
    · rw [turn_loaded hx]
      exact .inl (run_loaded (x := !z) (by simpa using hy) (by simp) (by simpa using h'))
    · rw [turn_loaded hy]
      exact .inr (run_loaded (x := x) (by simpa using hx) (by simp) (by simpa using h))

variable {s : σ} {turns : List Bool}

theorem interleave_serial (hc : Complete (x :: x :: turns)) :
    (interleave t s (x :: x :: turns)).state = (t !x).exec ((t x).exec s) := by
  have hcount : 2 ≤ turns.count (!x) := by simpa using hc (!x)
  have hfirst : turn t { state := s, phase := fun _ => .waiting } x = _ := turn_waiting rfl
  rw [interleave, run_cons, run_cons, hfirst, turn_loaded (Function.update_self ..)]
  exact run_waiting (x := !x) (by simp) (by simp) hcount

theorem interleave_overlap (hc : Complete (x :: (!x) :: turns)) :
    let s₁ := (t x).load s
    let s₂ := (t !x).load s₁.1
    (interleave t s (x :: (!x) :: turns)).state = (t !x).store s₂.2 ((t x).store s₁.2 s₂.1) ∨
      (interleave t s (x :: (!x) :: turns)).state = (t x).store s₁.2 ((t !x).store s₂.2 s₂.1) := by
  have hx : 1 ≤ turns.count x := by
    have := hc x
    rw [List.count_cons_self, List.count_cons_of_ne (by simp)] at this
    omega
  have hy : 1 ≤ turns.count (!x) := by
    have := hc (!x)
    rw [List.count_cons_of_ne (by simp), List.count_cons_self] at this
    omega
  have hfirst : turn t { state := s, phase := fun _ => .waiting } x = _ := turn_waiting rfl
  rw [interleave, run_cons, run_cons, hfirst, turn_waiting (by simp)]
  exact run_both_loaded (x := x) (by simp) (by simp) hx hy

theorem serial_or_overlap (hc : Complete turns) :
    Serial turns ∨ ∃ x rest, turns = x :: (!x) :: rest := by
  rcases turns with _ | ⟨x, _ | ⟨y, rest⟩⟩
  · exact absurd (hc true) (by simp)
  · exact absurd (hc (!x)) (by simp)
  · rcases Bool.eq_or_eq_not y x with rfl | rfl
    · exact .inl ⟨y, rest, rfl⟩
    · exact .inr ⟨x, rest, rfl⟩

end Txn

end AciX
