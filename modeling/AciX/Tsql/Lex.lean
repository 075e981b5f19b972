import AciX.Sql.Text

/-!
# The lexical grammar of T-SQL

A text is read one character at a time, with quoted identifiers on. A number ends at the first
character that cannot continue it, words are kept in lower case, line comments end at a line feed or
a carriage return, and the other comments nest. A line feed after a closed text takes the reader
back to where it started (`read_newline`), so texts put together line by line are read piece by
piece (`lex_append_newline`, `lex_flatten`).
-/

namespace AciX.Tsql

variable {x : List Token}

inductive Token where
  | word (t : Text)
  | number (t : Text)
  | string (t : Text)
  | quoted (t : Text)
  | symbol (c : Char)
  | scope
  deriving DecidableEq

inductive Phase where
  | zero
  | int
  | frac
  | exp
  | sign
  | hex
  deriving DecidableEq

inductive State where
  | start
  | word (t : Text)
  | number (p : Phase) (t : Text)
  | string (t : Text)
  | stringEnd (t : Text)
  | quoted (bracket : Bool) (t : Text)
  | quotedEnd (bracket : Bool) (t : Text)
  | colon
  | dash
  | slash
  | lineComment
  | comment (depth : ℕ) (last : Char)
  deriving DecidableEq

def isBlank (c : Char) : Bool := c ≤ ' '

def isLetter (c : Char) : Bool :=
  c.isAlpha || ('À' ≤ c && c ≤ 'ÿ' && c ≠ '×' && c ≠ '÷') || "ªµºƒˆŠŒŽšœžŸ".toList.contains c

def startsWord (c : Char) : Bool := isLetter c || c = '_' || c = '@' || c = '#'

def isWordChar (c : Char) : Bool := startsWord c || c.isDigit || c = '$'

def isHexDigit (c : Char) : Bool := c.isDigit || ('a' ≤ c && c ≤ 'f') || ('A' ≤ c && c ≤ 'F')

def Phase.next (p : Phase) (c : Char) : Option Phase :=
  let exponent := c = 'e' ∨ c = 'E'
  match p with
  | .zero =>
    if c = 'x' ∨ c = 'X' then some .hex
    else if c.isDigit then some .int
    else if c = '.' then some .frac
    else if exponent then some .exp
    else none
  | .int =>
    if c.isDigit then some .int
    else if c = '.' then some .frac
    else if exponent then some .exp
    else none
  | .frac => if c.isDigit then some .frac else if exponent then some .exp else none
  | .exp => if c.isDigit ∨ c = '+' ∨ c = '-' then some .sign else none
  | .sign => if c.isDigit then some .sign else none
  | .hex => if isHexDigit c then some .hex else none

def begin (c : Char) : List Token × State :=
  if c.isDigit then ([], .number (if c = '0' then .zero else .int) [c])
  else if isBlank c then ([], .start)
  else if startsWord c then ([], .word [Sql.foldChar c])
  else if c = '\x27' then ([], .string [])
  else if c = '\x22' then ([], .quoted false [])
  else if c = '[' then ([], .quoted true [])
  else if c = ':' then ([], .colon)
  else if c = '-' then ([], .dash)
  else if c = '/' then ([], .slash)
  else ([.symbol c], .start)

/-- What is left to emit when the text ends; `none` inside a string, a quoted identifier or a
comment that nests. -/
def State.finish : State → Option (List Token)
  | .start | .lineComment => some []
  | .word t => some [.word t]
  | .number _ t => some [.number t]
  | .stringEnd t => some [.string t]
  | .quotedEnd _ t => some [.quoted t]
  | .colon => some [.symbol ':']
  | .dash => some [.symbol '-']
  | .slash => some [.symbol '/']
  | .string _ | .quoted _ _ | .comment _ _ => none

def closing (bracket : Bool) : Char := if bracket then ']' else '\x22'

def State.endBefore (s : State) (c : Char) : List Token × State :=
  (s.finish.getD [] ++ (begin c).1, (begin c).2)

def State.next (s : State) (c : Char) : List Token × State :=
  match s with
  | .start => begin c
  | .word t => if isWordChar c then ([], .word (t ++ [Sql.foldChar c])) else s.endBefore c
  | .number p t =>
    match p.next c with
    | some p' => ([], .number p' (t ++ [c]))
    | none => s.endBefore c
  | .string t => ([], if c = '\x27' then .stringEnd t else .string (t ++ [c]))
  | .stringEnd t => if c = '\x27' then ([], .string (t ++ [c])) else s.endBefore c
  | .quoted b t => ([], if c = closing b then .quotedEnd b t else .quoted b (t ++ [c]))
  | .quotedEnd b t => if c = closing b then ([], .quoted b (t ++ [c])) else s.endBefore c
  | .colon => if c = ':' then ([.scope], .start) else s.endBefore c
  | .dash => if c = '-' then ([], .lineComment) else s.endBefore c
  | .slash => if c = '*' then ([], .comment 0 ' ') else s.endBefore c
  | .lineComment => ([], if c = '\n' ∨ c = '\r' then .start else .lineComment)
  | .comment depth last =>
    if last = '*' ∧ c = '/' then
      match depth with
      | 0 => ([], .start)
      | depth + 1 => ([], .comment depth ' ')
    else if last = '/' ∧ c = '*' then ([], .comment (depth + 1) ' ')
    else ([], .comment depth c)

def State.read : State → Text → List Token × State
  | s, [] => ([], s)
  | s, c :: t => ((s.next c).1 ++ ((s.next c).2.read t).1, ((s.next c).2.read t).2)

def lex (t : Text) : Option (List Token) :=
  (State.start.read t).2.finish.map ((State.start.read t).1 ++ ·)

namespace State

theorem read_append (s : State) (t u : Text) : s.read (t ++ u)
    = ((s.read t).1 ++ ((s.read t).2.read u).1, ((s.read t).2.read u).2) := by
  induction t generalizing s with
  | nil => rfl
  | cons c t ih => simp only [List.cons_append, read, ih, List.append_assoc]

theorem read_append_of {s s' s'' : State} {t u : Text} {x y : List Token}
    (ht : s.read t = (x, s')) (hu : s'.read u = (y, s'')) : s.read (t ++ u) = (x ++ y, s'') := by
  rw [read_append, ht, hu]

theorem next_newline {s : State} {x : List Token} (h : s.finish = some x) :
    s.next '\n' = (x, .start) := by
  cases s with
  | start | word | stringEnd | colon | dash | slash | lineComment =>
    cases h
    rfl
  | number p t =>
    cases h
    cases p <;> rfl
  | quotedEnd b t =>
    cases h
    cases b <;> rfl
  | string | quoted | comment => cases h

theorem read_newline {s : State} {x : List Token} (h : s.finish = some x) :
    s.read ['\n'] = (x, .start) := by
  simp [read, next_newline h]

theorem read_blank_newline {s : State} {x : List Token} (h : s.finish = some x) :
    s.read [' ', '\n'] = (x, .start) := by
  cases s with
  | start | word | stringEnd | colon | dash | slash | lineComment =>
    cases h
    rfl
  | number p t =>
    cases h
    cases p <;> rfl
  | quotedEnd b t =>
    cases h
    cases b <;> rfl
  | string | quoted | comment => cases h

theorem read_digits {p : Phase} (hp : p = .zero ∨ p = .int) {u : Text} :
    ∀ {t : Text}, (∀ c ∈ u, c.isDigit = true) →
      ∃ p', (State.number p t).read u = ([], .number p' (t ++ u)) := by
  induction u generalizing p with
  | nil =>
    intro t _
    exact ⟨p, by rw [List.append_nil]; rfl⟩
  | cons c u ih =>
    intro t h
    have hc : c.isDigit = true := h c List.mem_cons_self
    have hx : ¬ (c = 'x' ∨ c = 'X') := by
      intro hx
      rcases hx with rfl | rfl <;> cases hc
    have hnext : (State.number p t).next c = ([], .number .int (t ++ [c])) := by
      rcases hp with rfl | rfl <;> simp [next, Phase.next, hc, hx]
    obtain ⟨p', hp'⟩ := ih (.inr rfl) (t := t ++ [c]) fun c hc => h c (List.mem_cons_of_mem _ hc)
    refine ⟨p', ?_⟩
    rw [read, hnext, hp']
    simp

end State

theorem lex_eq_some {t : Text} (h : lex t = some x) :
    ∃ y z s, State.start.read t = (y, s) ∧ s.finish = some z ∧ x = y ++ z := by
  obtain ⟨z, hz, hx⟩ := Option.map_eq_some_iff.1 h
  exact ⟨_, z, _, rfl, hz, hx.symm⟩

theorem read_lex_newline {t u : Text} (h : lex t = some x)
    (hu : u = ['\n'] ∨ u = [' ', '\n']) : State.start.read (t ++ u) = (x, .start) := by
  obtain ⟨y, z, s, hy, hz, rfl⟩ := lex_eq_some h
  rcases hu with rfl | rfl
  · exact State.read_append_of hy (State.read_newline hz)
  · exact State.read_append_of hy (State.read_blank_newline hz)

theorem lex_of_read {t u : Text} (h : State.start.read t = (x, .start)) :
    lex (t ++ u) = (lex u).map (x ++ ·) := by
  unfold lex
  rw [State.read_append, h]
  simp only [Option.map_map, Function.comp_def, List.append_assoc]

@[simp] theorem lex_newline (t : Text) : lex ('\n' :: t) = lex t := rfl

theorem lex_append_newline {t : Text} (h : lex t = some x) (u : Text) :
    lex (t ++ '\n' :: u) = (lex u).map (x ++ ·) := by
  have : t ++ '\n' :: u = (t ++ ['\n']) ++ u := by simp
  rw [this]
  exact lex_of_read (read_lex_newline h (.inl rfl))

theorem lex_flatten : ∀ {ts : List Text} {xs : List (List Token)},
    List.Forall₂ (fun t x => lex t = some x) ts xs →
      lex (ts.map ('\n' :: ·)).flatten = some xs.flatten
  | [], _, .nil => rfl
  | [t], _, .cons h .nil => by simpa using h
  | t :: u :: ts, x :: xs, .cons h hs => by
    have ih := lex_flatten hs
    simp only [List.map_cons, List.flatten_cons, List.cons_append, lex_newline] at ih ⊢
    rw [lex_append_newline h, ih]
    rfl

end AciX.Tsql
