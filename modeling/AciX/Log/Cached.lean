import AciX.Run
import AciX.Search.Names

/-!
# The ids of the log

`ApiLogger` keeps the ids that `spApiLog` has found for the texts of an event, and passes the id
when a text comes again. The log is as without that (`log_transparent`).
-/

namespace AciX.ApiLog

open Profile (NameTable)

inductive Field where
  | userAgent
  | template
  | path
  | server
  deriving DecidableEq

namespace Field

def rank : Field → ℕ
  | userAgent => 0
  | template => 1
  | path => 2
  | server => 3

/-- What the parameters of `spApiLog` and of the procedure for the field leave of a text. -/
def stored : Field → Text → Text
  | userAgent, t => Sql.varchar 255 t
  | template, t => Sql.varchar 255 (Sql.varchar 256 t)
  | path, t => Sql.varchar 255 (Sql.varchar 256 t)
  | server, t => Sql.varchar 50 (Sql.varchar 20 t)

end Field

structure LogEvent where
  texts : Field → Option Text

def LogEvent.key (e : LogEvent) (f : Field) : Text := (e.texts f).getD "NULL".toList

structure State where
  tables : Field → NameTable
  dicts : Field → Text → Option ℤ := fun _ _ => none
  log : List (LogEvent × (Field → ℤ)) := []

/-- The call fails after some lookups, or the row is written and the call returns or fails. -/
inductive Result where
  | fails (lookups : ℕ)
  | logged (returns : Bool)

inductive Step where
  | event (e : LogEvent) (result : Result)
  | other (f : Field) (text : Text)

section Model

variable (hostName : Text)

def param (f : Field) (key : Text) : Text := if f = .server then hostName else key

/-- One of the lookups, of which the first `n` are made. A text that is in the dictionary is passed
as `NULL`, and its id is not 0. -/
def spApiLog (n : ℕ) (f : Field) (t : NameTable) (text : Option Text) (id : ℤ) : ℤ × NameTable :=
  if f.rank < n ∧ id = 0 then t.get (f.stored (text.getD "???".toList)) else (id, t)

def State.resolved (s : State) (e : LogEvent) (n : ℕ) (f : Field) : ℤ × NameTable :=
  let cached := s.dicts f (e.key f)
  spApiLog n f (s.tables f) (if f = .server then some hostName else
    if cached.isSome then none else some (e.key f)) (cached.getD 0)

def callContextApiLogged (s : State) (e : LogEvent) (result : Result) : State :=
  match result with
  | .fails n => { s with tables := fun f => (s.resolved hostName e n f).2 }
  | .logged returns =>
    { tables := fun f => (s.resolved hostName e 4 f).2
      log := s.log ++ [(e, fun f => (s.resolved hostName e 4 f).1)]
      dicts := fun f => if returns && (s.dicts f (e.key f)).isNone then
        Function.update (s.dicts f) (e.key f) (some (s.resolved hostName e 4 f).1) else s.dicts f }

def step (s : State) : Step → State
  | .event e result => callContextApiLogged hostName s e result
  | .other f text =>
    { s with tables := Function.update s.tables f ((s.tables f).get text).2 }

def forget (s : State) : State := { s with dicts := fun _ _ => none }

def stepUncached (s : State) (a : Step) : State := forget (step hostName (forget s) a)

end Model

variable {hostName : Text} {s : State}

structure Inv (hostName : Text) (s : State) : Prop where
  dicts : ∀ f key i, s.dicts f key = some i →
    (s.tables f).find (f.stored (param hostName f key)) = some i
  log : ∀ x ∈ s.log, ∀ f, (s.tables f).find (f.stored (param hostName f (x.1.key f))) = some (x.2 f)

section

variable (hI : Inv hostName s)
include hI

theorem resolved_eq (e : LogEvent) (n : ℕ) (f : Field) :
    s.resolved hostName e n f =
      if f.rank < n then (s.tables f).get (f.stored (param hostName f (e.key f)))
      else ((s.dicts f (e.key f)).getD 0, s.tables f) := by
  unfold State.resolved spApiLog
  rcases hd : s.dicts f (e.key f) with _ | i
  · by_cases hf : f = .server <;> simp [param, hf]
  · have hfind := hI.dicts f _ i hd
    simp [(NameTable.find_pos hfind).ne', NameTable.get_of_find hfind]

theorem resolved_four (e : LogEvent) (f : Field) :
    s.resolved hostName e 4 f = (s.tables f).get (f.stored (param hostName f (e.key f))) := by
  rw [resolved_eq hI, if_pos]
  cases f <;> decide

theorem Inv.grown {tables : Field → NameTable}
    (h : ∀ f, (s.tables f).Grown (tables f)) : Inv hostName { s with tables := tables } :=
  ⟨fun f key i hd => (h f).find (hI.dicts f key i hd), fun x hx f => (h f).find (hI.log x hx f)⟩

theorem Inv.resolved (e : LogEvent) (n : ℕ) :
    Inv hostName { s with tables := fun f => (s.resolved hostName e n f).2 } := by
  refine hI.grown fun f => ?_
  rw [resolved_eq hI]
  split_ifs
  · exact NameTable.grown_get _ _
  · exact .refl _

theorem Inv.step (a : Step) : Inv hostName (step hostName s a) := by
  rcases a with ⟨e, n | returns⟩ | ⟨f, text⟩
  · exact hI.resolved e n
  · have hI' := hI.resolved e 4
    have hself (f : Field) : (s.resolved hostName e 4 f).2.find
        (f.stored (param hostName f (e.key f))) = some (s.resolved hostName e 4 f).1 := by
      rw [resolved_four hI]
      exact NameTable.find_get_self _ _
    constructor
    · intro f key i hd
      simp only [ApiLog.step, callContextApiLogged] at hd ⊢
      split_ifs at hd
      · by_cases hkey : key = e.key f
        · rw [hkey, Function.update_self, Option.some.injEq] at hd
          rw [hkey, ← hd]
          exact hself f
        · rw [Function.update_of_ne hkey] at hd
          exact hI'.dicts f key i hd
      · exact hI'.dicts f key i hd
    · intro x hx f
      rcases List.mem_append.1 hx with hx | hx
      · exact hI'.log x hx f
      · rw [List.mem_singleton.1 hx]
        exact hself f
  · refine hI.grown fun f' => ?_
    by_cases hf : f' = f
    · rw [hf, Function.update_self]
      exact NameTable.grown_get _ _
    · rw [Function.update_of_ne hf]
      exact .refl _

theorem Inv.forget : Inv hostName (forget s) :=
  ⟨nofun, hI.log⟩

theorem forget_step (a : Step) :
    forget (step hostName s a) = stepUncached hostName (forget s) a := by
  rcases a with ⟨e, n | returns⟩ | ⟨f, text⟩
  · have htables (f : Field) :
        (s.resolved hostName e n f).2 = ((forget s).resolved hostName e n f).2 := by
      rw [resolved_eq hI, resolved_eq hI.forget]
      split_ifs <;> rfl
    simp only [stepUncached, step, callContextApiLogged, forget, htables]
  · have hrow (f : Field) : s.resolved hostName e 4 f = (forget s).resolved hostName e 4 f := by
      rw [resolved_four hI, resolved_four hI.forget]
      rfl
    simp only [stepUncached, step, callContextApiLogged, forget, hrow]
  · rfl

end

/-- The cache of ids changes nothing in the log, and each id in it is that of the name stored. -/
theorem log_transparent (hostName : Text) (tables : Field → NameTable) (steps : List Step) :
    (run (step hostName) { tables := tables } steps).log =
      (run (stepUncached hostName) { tables := tables } steps).log ∧
    ∀ x ∈ (run (step hostName) { tables := tables } steps).log, ∀ f,
      ((run (step hostName) { tables := tables } steps).tables f).find
        (f.stored (param hostName f (x.1.key f))) = some (x.2 f) := by
  have hstart : Inv hostName { tables := tables } := ⟨nofun, nofun⟩
  have hrun (steps : List Step) (s : State) (hI : Inv hostName s) :
      Inv hostName (run (step hostName) s steps) ∧
        forget (run (step hostName) s steps) = run (stepUncached hostName) (forget s) steps := by
    induction steps generalizing s with
    | nil => exact ⟨hI, rfl⟩
    | cons a steps ih =>
      rw [run_cons, run_cons, ← forget_step hI]
      exact ih _ (hI.step a)
  obtain ⟨hI, hlog⟩ := hrun steps _ hstart
  exact ⟨show (forget _).log = _ by rw [hlog]; rfl, hI.log⟩

end AciX.ApiLog
