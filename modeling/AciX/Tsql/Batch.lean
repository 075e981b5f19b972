import AciX.Tsql.Lex

/-!
# The statements of a batch

Statements need not be separated: a `SELECT` ends at a semicolon or, outside parentheses, at a word
that begins a statement and does not continue the `SELECT`. `statements` divides a batch, and a
batch put together from parts that `scan` follows is divided into these parts
(`statements_flatten`). What is not `tame` does not stay inside the statement it is appended to
(`tame_of_statements`, `tame_of_two_statements`).
-/

namespace AciX.Tsql

open List

def semicolon : Token := .symbol ';'

def colon : Token := .symbol ':'

def keyword (s : String) : Token := .word s.toList

def select : Token := keyword "select"

def conversation : Token := keyword "conversation"

def statementWords : List Token :=
  ["add", "alter", "backup", "begin", "break", "bulk", "checkpoint", "close", "commit", "continue",
    "create", "dbcc", "deallocate", "declare", "delete", "deny", "drop", "dump", "exec", "execute",
    "goto", "grant", "if", "insert", "kill", "lineno", "load", "merge", "open", "print",
    "raiserror", "readtext", "reconfigure", "restore", "return", "revert", "revoke", "rollback",
    "save", "set", "setuser", "shutdown", "truncate", "update", "updatetext", "use", "waitfor",
    "while", "writetext"].map keyword

def reservedWords : List Token :=
  ["add", "all", "alter", "and", "any", "as", "asc", "authorization", "backup", "begin", "between",
    "break", "browse", "bulk", "by", "cascade", "case", "check", "checkpoint", "close", "clustered",
    "coalesce", "collate", "column", "commit", "compute", "constraint", "contains",
    "containstable", "continue", "convert", "create", "cross", "current", "current_date",
    "current_time", "current_timestamp", "current_user", "cursor", "database", "dbcc",
    "deallocate", "declare", "default", "delete", "deny", "desc", "disk", "distinct",
    "distributed", "double", "drop", "dump", "else", "end", "errlvl", "escape", "except", "exec",
    "execute", "exists", "exit", "external", "fetch", "file", "fillfactor", "for", "foreign",
    "freetext", "freetexttable", "from", "full", "function", "goto", "grant", "group", "having",
    "holdlock", "identity", "identity_insert", "identitycol", "if", "in", "index", "inner",
    "insert", "intersect", "into", "is", "join", "key", "kill", "left", "like", "lineno", "load",
    "merge", "national", "nocheck", "nonclustered", "not", "null", "nullif", "of", "off",
    "offsets", "on", "open", "opendatasource", "openquery", "openrowset", "openxml", "option",
    "or", "order", "outer", "over", "percent", "pivot", "plan", "precision", "primary", "print",
    "proc", "procedure", "public", "raiserror", "read", "readtext", "reconfigure", "references",
    "replication", "restore", "restrict", "return", "revert", "revoke", "right", "rollback",
    "rowcount", "rowguidcol", "rule", "save", "schema", "securityaudit", "select",
    "session_user", "set", "setuser", "shutdown", "some", "statistics", "system_user", "table",
    "tablesample", "textsize", "then", "to", "top", "tran", "transaction", "trigger", "truncate",
    "try_convert", "tsequal", "union", "unique", "unpivot", "update", "updatetext", "use", "user",
    "values", "varying", "view", "waitfor", "when", "where", "while", "with", "within",
    "writetext"].map keyword

def joins (prev : Option Token) : Bool :=
  ["union", "except", "intersect", "all"].any fun s => prev = some (keyword s)

def Token.isWord : Token → Bool
  | .word _ => true
  | _ => false

/-- Whether a statement begins with the token `t`, at a depth of parentheses and between its
neighbours. -/
def begins (depth : ℕ) (prev : Option Token) (t : Token) (next : Option Token) : Bool :=
  depth = 0 && t.isWord &&
    if t = select then !joins prev
    else if t = keyword "fetch" then prev ≠ some (keyword "row") && prev ≠ some (keyword "rows")
    else if t = keyword "end" then next = some conversation
    else statementWords.contains t || (next = some colon && !reservedWords.contains t)

def nested (depth : ℕ) (t : Token) : ℕ :=
  if t = .symbol '(' then depth + 1 else if t = .symbol ')' then depth - 1 else depth

def gather (r : List Token × List (List Token)) : List (List Token) :=
  if r.1 = [] then r.2 else r.1 :: r.2

def divide : ℕ → Option Token → List Token → List Token × List (List Token)
  | _, _, [] => ([], [])
  | depth, prev, t :: ts =>
    if t = semicolon then ([], gather (divide 0 none ts))
    else
      let r := divide (nested depth t) (some t) ts
      if begins depth prev t ts.head? then ([], (t :: r.1) :: r.2) else (t :: r.1, r.2)

def statements (ts : List Token) : List (List Token) := gather (divide 0 none ts)

/-- The depth and the last token after a part of a statement; `none` if the statement ends in it. -/
def scan : ℕ → Option Token → List Token → Option (ℕ × Option Token)
  | depth, prev, [] => some (depth, prev)
  | depth, prev, t :: ts =>
    if t = semicolon ∨ begins depth prev t ts.head? = true then none
    else scan (nested depth t) (some t) ts

def body (ts : List Token) : List Token := ts.takeWhile (· ≠ semicolon)

def afterBody (ts : List Token) : List Token := ts.dropWhile (· ≠ semicolon)

/-- The tokens stay inside the statement they are appended to after `prev`: no statement begins in
them, nothing but semicolons follows a semicolon, and if there is none, the parentheses are closed
and a `SELECT` that follows is a statement of its own. -/
def tame (prev : Option Token) (ts : List Token) : Bool :=
  (afterBody ts).all (· = semicolon) &&
    match scan 0 prev (body ts) with
    | none => false
    | some (depth, last) => !(afterBody ts).isEmpty || (depth = 0 && !joins last)

def Neutral (next : Option Token) : Prop :=
  next ≠ some colon ∧ next ≠ some conversation

variable {depth depth' : ℕ} {prev prev' last : Option Token} {t : Token} {ts us : List Token}

theorem neutral_none : Neutral none := ⟨by decide, by decide⟩

theorem neutral_select : Neutral (some select) := ⟨by decide, by decide⟩

theorem neutral_semicolon : Neutral (some semicolon) := ⟨by decide, by decide⟩

theorem begins_of_neutral {next : Option Token} (h : Neutral next) :
    begins depth prev t next = begins depth prev t none := by
  have h₁ : decide (next = some colon) = decide (none = some colon) := decide_eq_false h.1
  have h₂ : decide (next = some conversation) = decide (none = some conversation) :=
    decide_eq_false h.2
  unfold begins
  rw [h₁, h₂]

theorem begins_select (depth : ℕ) (prev next : Option Token) :
    begins depth prev select next = (decide (depth = 0) && !joins prev) := by
  unfold begins
  rw [if_pos rfl, show select.isWord = true from rfl, Bool.and_true]

theorem divide_semicolon (ts : List Token) :
    divide depth prev (semicolon :: ts) = ([], statements ts) := by
  simp only [divide, if_true, statements]

theorem divide_cons_of_begins (ht : t ≠ semicolon) (h : begins depth prev t ts.head? = true) :
    divide depth prev (t :: ts) = ([], (t :: (divide (nested depth t) (some t) ts).1) ::
      (divide (nested depth t) (some t) ts).2) := by
  simp only [divide, if_neg ht, h, if_true]

theorem divide_cons_of_not_begins (ht : t ≠ semicolon) (h : begins depth prev t ts.head? = false) :
    divide depth prev (t :: ts) = (t :: (divide (nested depth t) (some t) ts).1,
      (divide (nested depth t) (some t) ts).2) := by
  simp only [divide, if_neg ht, h, Bool.false_eq_true, if_false]

theorem scan_cons (ht : t ≠ semicolon) (h : begins depth prev t ts.head? = false) :
    scan depth prev (t :: ts) = scan (nested depth t) (some t) ts := by
  rw [scan, if_neg (by simp [ht, h])]

theorem scan_cons_eq_some {r : ℕ × Option Token} (h : scan depth prev (t :: ts) = some r) :
    t ≠ semicolon ∧ begins depth prev t ts.head? = false ∧
      scan (nested depth t) (some t) ts = some r := by
  rw [scan] at h
  split_ifs at h with hc
  simp only [not_or, Bool.not_eq_true] at hc
  exact ⟨hc.1, hc.2, h⟩

theorem begins_append (hu : Neutral us.head?) :
    begins depth prev t (ts ++ us).head? = begins depth prev t ts.head? := by
  cases ts with
  | nil => exact begins_of_neutral hu
  | cons t' ts => rfl

theorem divide_append (hu : Neutral us.head?) :
    ∀ {depth : ℕ} {prev : Option Token} {ts : List Token},
      scan depth prev ts = some (depth', last) →
        divide depth prev (ts ++ us) = (ts ++ (divide depth' last us).1, (divide depth' last us).2)
  | _, _, [], h => by
    cases h
    rfl
  | depth, prev, t :: ts, h => by
    obtain ⟨ht, hb, hs⟩ := scan_cons_eq_some h
    rw [cons_append, divide_cons_of_not_begins ht (by rw [begins_append hu, hb]),
      divide_append hu hs]
    rfl

theorem scan_append (hu : Neutral us.head?) :
    ∀ {depth : ℕ} {prev : Option Token} {ts : List Token},
      scan depth prev ts = some (depth', last) → scan depth prev (ts ++ us) = scan depth' last us
  | _, _, [], h => by
    cases h
    rfl
  | depth, prev, t :: ts, h => by
    obtain ⟨ht, hb, hs⟩ := scan_cons_eq_some h
    rw [cons_append, scan_cons ht (by rw [begins_append hu, hb]), scan_append hu hs]

theorem statements_select (ts : List Token) : statements (select :: ts)
    = (select :: (divide 0 (some select) ts).1) :: (divide 0 (some select) ts).2 := by
  unfold statements
  rw [divide_cons_of_begins (by decide) rfl]
  rfl

theorem divide_select (h : joins prev = false) (ts : List Token) :
    divide 0 prev (select :: ts) = ([], statements (select :: ts)) := by
  rw [statements_select, divide_cons_of_begins (by decide) (by rw [begins_select, h]; rfl)]
  rfl

section

variable (hs : ∀ t ∈ ts, t = semicolon)
include hs

theorem statements_semicolons (us : List Token) :
    statements (ts ++ us) = statements us := by
  induction ts with
  | nil => rfl
  | cons t ts ih =>
    obtain rfl := hs t mem_cons_self
    have := ih fun t ht => hs t (mem_cons_of_mem _ ht)
    rw [cons_append, statements, divide_semicolon, this]
    rfl

theorem divide_semicolons
    (hend : ts = [] → depth = 0 ∧ joins last = false) (hu : us = [] ∨ ∃ us', us = select :: us') :
    divide depth last (ts ++ us) = ([], statements us) := by
  cases ts with
  | nil =>
    obtain ⟨rfl, hj⟩ := hend rfl
    rcases hu with rfl | ⟨us', rfl⟩
    · rfl
    · exact divide_select hj us'
  | cons t ts =>
    obtain rfl := hs t mem_cons_self
    rw [cons_append, divide_semicolon,
      statements_semicolons fun t ht => hs t (mem_cons_of_mem _ ht)]

theorem neutral_semicolons
    (hu : us = [] ∨ ∃ us', us = select :: us') : Neutral (ts ++ us).head? := by
  cases ts with
  | nil =>
    rcases hu with rfl | ⟨us', rfl⟩
    · exact neutral_none
    · exact neutral_select
  | cons t ts =>
    obtain rfl := hs t mem_cons_self
    exact neutral_semicolon

end

/-- The statement `s` is complete when `semis` follow it: no other begins in it and, without a
semicolon, the next `SELECT` begins one. -/
def Complete (semis s : List Token) : Prop :=
  ∃ ts depth last, s = select :: ts ∧ scan 0 (some select) ts = some (depth, last) ∧
    (semis = [] → depth = 0 ∧ joins last = false)

theorem statements_flatten {semis : List Token} (hs : ∀ t ∈ semis, t = semicolon) :
    ∀ {ss : List (List Token)}, (∀ s ∈ ss, Complete semis s) →
      statements (ss.map (· ++ semis)).flatten = ss
  | [], _ => rfl
  | s :: ss, h => by
    obtain ⟨ts, depth, last, rfl, hscan, hend⟩ := h s mem_cons_self
    have ih := statements_flatten hs fun s hm => h s (mem_cons_of_mem _ hm)
    have hnext : (ss.map (· ++ semis)).flatten = [] ∨
        ∃ us', (ss.map (· ++ semis)).flatten = select :: us' := by
      cases ss with
      | nil => exact .inl rfl
      | cons s' ss =>
        obtain ⟨ts', -, -, rfl, -⟩ := h s' (mem_cons_of_mem _ mem_cons_self)
        exact .inr ⟨_, rfl⟩
    rw [map_cons, flatten_cons, cons_append, cons_append, statements_select,
      append_assoc, divide_append (neutral_semicolons hs hnext) hscan,
      divide_semicolons hs hend hnext, ih]
    simp

theorem statements_eq_nil : ∀ {ts : List Token}, statements ts = [] → ∀ t ∈ ts, t = semicolon
  | [], _, _, ht => by cases ht
  | t :: ts, h, u, hu => by
    unfold statements gather at h
    by_cases ht : t = semicolon
    · subst ht
      rw [divide_semicolon, if_pos rfl] at h
      rcases mem_cons.1 hu with rfl | hu
      · rfl
      · exact statements_eq_nil h u hu
    · rcases hb : begins 0 none t ts.head? with _ | _
      · rw [divide_cons_of_not_begins ht hb] at h
        simp at h
      · rw [divide_cons_of_begins ht hb] at h
        simp at h

theorem begins_body : begins depth prev t (body ts).head? = begins depth prev t ts.head? := by
  cases ts with
  | nil => rfl
  | cons t' ts =>
    by_cases ht : t' = semicolon
    · subst ht
      exact (begins_of_neutral neutral_semicolon).symm
    · simp [body, ht]

theorem scan_body_of_divide : ∀ {depth : ℕ} {prev : Option Token} {ts : List Token},
    (divide depth prev ts).2 = [] →
      (∀ t ∈ afterBody ts, t = semicolon) ∧ ∃ r, scan depth prev (body ts) = some r
  | depth, prev, [], _ => ⟨fun _ h => (by cases h), _, rfl⟩
  | depth, prev, t :: ts, h => by
    by_cases ht : t = semicolon
    · subst ht
      rw [divide_semicolon] at h
      refine ⟨fun u hu => ?_, _, rfl⟩
      rcases mem_cons.1 hu with rfl | hu
      · rfl
      · exact statements_eq_nil h u hu
    · rcases hb : begins depth prev t ts.head? with _ | _
      · rw [divide_cons_of_not_begins ht hb] at h
        obtain ⟨hafter, r, hr⟩ := scan_body_of_divide h
        have hbody : body (t :: ts) = t :: body ts := by simp [body, ht]
        have hrest : afterBody (t :: ts) = afterBody ts := by simp [afterBody, ht]
        rw [hbody, hrest]
        exact ⟨hafter, r, by rw [scan_cons ht (begins_body.trans hb)]; exact hr⟩
      · rw [divide_cons_of_begins ht hb] at h
        cases h

theorem length_gather (r : List Token × List (List Token)) :
    (gather r).flatten.length = r.1.length + r.2.flatten.length := by
  unfold gather
  split_ifs with h
  · simp [h]
  · simp

theorem length_divide_le : ∀ (depth : ℕ) (prev : Option Token) (ts : List Token),
    (divide depth prev ts).1.length + (divide depth prev ts).2.flatten.length ≤ ts.length
  | _, _, [] => le_rfl
  | depth, prev, t :: ts => by
    have ih := length_divide_le (nested depth t) (some t) ts
    have ih₀ := length_divide_le 0 none ts
    by_cases ht : t = semicolon
    · subst ht
      rw [divide_semicolon, statements, length_gather]
      simp only [length_nil, length_cons]
      omega
    · rcases hb : begins depth prev t ts.head? with _ | _
      · rw [divide_cons_of_not_begins ht hb]
        simp only [length_cons]
        omega
      · rw [divide_cons_of_begins ht hb]
        simp only [length_nil, length_cons, flatten_cons, cons_append, length_append]
        omega

theorem length_statements_le (ts : List Token) : (statements ts).flatten.length ≤ ts.length := by
  rw [statements, length_gather]
  exact length_divide_le 0 none ts

theorem body_append_afterBody (ts : List Token) : body ts ++ afterBody ts = ts :=
  takeWhile_append_dropWhile

theorem tame_iff : tame prev ts = true ↔ (∀ t ∈ afterBody ts, t = semicolon) ∧
    ∃ depth last, scan 0 prev (body ts) = some (depth, last) ∧
      (afterBody ts = [] → depth = 0 ∧ joins last = false) := by
  unfold tame
  rcases scan 0 prev (body ts) with _ | ⟨depth, last⟩
  · simp
  · simp only [Bool.and_eq_true, all_eq_true, decide_eq_true_eq, Bool.or_eq_true,
      Bool.not_eq_true', isEmpty_eq_false_iff, Option.some.injEq, Prod.mk.injEq]
    refine and_congr_right fun _ => ⟨fun h => ⟨_, _, ⟨rfl, rfl⟩, fun he => ?_⟩, fun h => ?_⟩
    · exact h.resolve_left (not_not.2 he)
    · obtain ⟨_, _, ⟨rfl, rfl⟩, h⟩ := h
      exact or_iff_not_imp_left.2 fun he => h (not_not.1 he)

structure Inert (w : Token) : Prop where
  ne : w ≠ semicolon
  begins : ∀ depth prev next, begins depth prev w next = false
  nested : ∀ depth, nested depth w = depth
  neutral : Neutral (some w)

theorem inert_of {w : Token} (hword : w.isWord = true) (hs : w ≠ select)
    (hf : w ≠ keyword "fetch") (he : w ≠ keyword "end") (hc : w ≠ conversation)
    (hb : statementWords.contains w = false) (hr : reservedWords.contains w = true) :
    Inert w := by
  cases w with
  | word t =>
    refine ⟨fun h => (by cases h), fun depth prev next => ?_, fun depth => rfl,
      fun h => (by cases h), fun h => hc (Option.some.inj h)⟩
    unfold begins
    rw [if_neg hs, if_neg hf, if_neg he, hb, hr]
    simp
  | number | string | quoted | symbol | scope => cases hword

theorem inert_of_not_word {w : Token} (hword : w.isWord = false)
    (hs : w ≠ semicolon) (hc : w ≠ colon) (ho : w ≠ .symbol '(') (hp : w ≠ .symbol ')') :
    Inert w := by
  refine ⟨hs, fun depth prev next => ?_, fun depth => ?_, fun h => hc (Option.some.inj h),
    fun h => ?_⟩
  · unfold begins
    rw [hword, Bool.and_false, Bool.false_and]
  · unfold nested
    rw [if_neg ho, if_neg hp]
  · rw [Option.some.inj h] at hword
    cases hword

section Appended

variable {w : Token} (hw : Inert w) {h₁ h₂ r : List Token}
include hw

theorem divide_inert (ts : List Token) : divide depth prev (w :: ts)
    = (w :: (divide depth (some w) ts).1, (divide depth (some w) ts).2) := by
  rw [divide_cons_of_not_begins hw.ne (hw.begins ..), hw.nested]

theorem scan_inert (ts : List Token) : scan depth prev (w :: ts) = scan depth (some w) ts := by
  rw [scan_cons hw.ne (hw.begins ..), hw.nested]

theorem Complete.append (h : Complete [] h₁) (ht : tame (some w) ts = true) :
    Complete (afterBody ts) (h₁ ++ w :: body ts) := by
  obtain ⟨us, depth, last, rfl, hscan, hend⟩ := h
  obtain ⟨rfl, -⟩ := hend rfl
  obtain ⟨-, depth', last', hscan', hend'⟩ := tame_iff.1 ht
  refine ⟨us ++ w :: body ts, depth', last', rfl, ?_, hend'⟩
  have happ : scan 0 (some select) (us ++ w :: body ts) = scan 0 last (w :: body ts) :=
    scan_append (by exact hw.neutral) hscan
  rw [happ, scan_inert hw, hscan']

theorem divide_appended (h : Complete [] h₁) (ts : List Token) : ∃ us, h₁ = select :: us ∧
    divide 0 (some select) (us ++ w :: ts)
      = (us ++ w :: (divide 0 (some w) ts).1, (divide 0 (some w) ts).2) := by
  obtain ⟨us, depth, last, rfl, hscan, hend⟩ := h
  obtain ⟨rfl, -⟩ := hend rfl
  refine ⟨us, rfl, ?_⟩
  have happ : divide 0 (some select) (us ++ w :: ts)
      = (us ++ (divide 0 last (w :: ts)).1, (divide 0 last (w :: ts)).2) :=
    divide_append (by exact hw.neutral) hscan
  rw [happ, divide_inert hw]

theorem scan_of_statements (h : Complete [] h₁) (hs : statements (h₁ ++ w :: ts) = [h₁ ++ r]) :
    (∀ t ∈ afterBody ts, t = semicolon) ∧ ∃ x, scan 0 (some w) (body ts) = some x := by
  obtain ⟨us, rfl, hdiv⟩ := divide_appended hw h ts
  rw [cons_append, statements_select, hdiv, List.cons.injEq] at hs
  exact scan_body_of_divide hs.2

/-- What is appended to two statements and leaves them two is tame: otherwise the first would have
swallowed the second. -/
theorem tame_of_statements (hc₁ : Complete [] h₁) (hc₂ : Complete [] h₂)
    (hone : ∃ r, statements (h₁ ++ w :: ts) = [h₁ ++ r])
    (htwo : statements (h₁ ++ w :: ts ++ (h₂ ++ w :: ts)) = [h₁ ++ r, h₂ ++ r]) :
    tame (some w) ts = true := by
  obtain ⟨r₁, hone⟩ := hone
  obtain ⟨hafter, ⟨depth, last⟩, hscan⟩ := scan_of_statements hw hc₁ hone
  refine tame_iff.2 ⟨hafter, depth, last, hscan, fun hnil => ?_⟩
  have hts : body ts = ts := by
    have := body_append_afterBody ts
    rwa [hnil, append_nil] at this
  rw [hts] at hscan
  by_contra hend
  obtain ⟨vs, -, -, hh₂, -⟩ := id hc₂
  obtain ⟨us, rfl, hdiv⟩ := divide_appended hw hc₁ (ts ++ (h₂ ++ w :: ts))
  have hjoin : divide depth last (h₂ ++ w :: ts)
      = (select :: (divide depth (some select) (vs ++ w :: ts)).1,
          (divide depth (some select) (vs ++ w :: ts)).2) := by
    rw [hh₂, cons_append, divide_cons_of_not_begins (by decide)]
    · rfl
    · rw [begins_select]
      by_cases hd : depth = 0
      · simpa [hd] using hend
      · simp [hd]
  have hneutral : Neutral (h₂ ++ w :: ts).head? := by
    rw [hh₂]
    exact neutral_select
  have hlength := length_statements_le (select :: us ++ w :: ts ++ (h₂ ++ w :: ts))
  rw [htwo] at hlength
  rw [append_assoc, cons_append, cons_append, cons_append, statements_select,
    hdiv, divide_append hneutral hscan, hjoin] at htwo
  simp only [List.cons.injEq, true_and, append_cancel_left_eq] at htwo
  have hr := congrArg List.length htwo.1
  simp only [flatten_cons, flatten_nil, length_append, length_cons, length_nil] at hlength hr
  omega

end Appended

end AciX.Tsql
