import AciX.Except
import AciX.OptOut.Helper
import AciX.Tsql.Literal

/-!
# The script of the opt-out helper

Each line of the script should be a comment or one command for the names and the state of a link.
But the names are put between quotes as they are, and the comment for a link that fails holds a
stack trace, which has more than one line. So this is so exactly if no link fails and no first or
last name has a quote (`onlyCommands_iff`).
-/

namespace AciX.OptOut

open List hiding lex

open Tsql

def IsComment (line : Text) : Prop := ['-', '-'] <+: line ∧ lex line = some []

def execTokens (p : QueryParams) : List Token :=
  [.word "exec".toList, .word "spsearchresultsdelete".toList, .string (capFirst p.firstName),
    .symbol ',', .string (capFirst p.lastName)] ++
  if p.stateAbbr = [] then [] else [.symbol ',', .string (toUpper p.stateAbbr)]

def lineOf (o : KeyOrder) (ps : List QueryParams) (e : QueryParams) : Text :=
  execLine (longest ((entriesOf o ps).map QueryParams.firstName))
    (longest ((entriesOf o ps).map QueryParams.lastName)) e

/-- Each line of the script is a comment or the line for a link, and that is one command whose
literals are the names and the state read from the link. -/
def OnlyCommands (o : KeyOrder) (t : Traces) (selection : List (Option Text)) : Prop :=
  ∀ script ∈ processSelection o t selection,
    (∀ line ∈ script.splitOn '\n', line = [] ∨ IsComment line ∨
      ∃ e ∈ entriesOf o (paramsOf (queriesOf selection)),
        line = lineOf o (paramsOf (queriesOf selection)) e) ∧
    ∀ e ∈ entriesOf o (paramsOf (queriesOf selection)),
      lex (lineOf o (paramsOf (queriesOf selection)) e) = some (execTokens e)

def lastPart : List Text → Text
  | [_, last] => last
  | _ :: _ :: last :: _ => last
  | _ => []

/-- There is a name, a state that is given by its name is in lower case, and neither the first nor
the last name has a quote. -/
structure Harmless (query : Text) : Prop where
  named : partsOf (cutState query).1 ≠ []
  lower : ∀ state ∈ (cutState query).2, containsKey stateAbbrByName state = true →
    toLower state = state
  first : quote ∉ (partsOf (cutState query).1).headD []
  last : quote ∉ lastPart (partsOf (cutState query).1)

section Characters

structure Fixed (d : Char) : Prop where
  fold : ∀ c, Sql.foldChar c = d ↔ c = d
  upper : ∀ c, upperChar c = d ↔ c = d

theorem fixed_quote : Fixed quote :=
  ⟨Sql.foldChar_eq_iff (by decide) (by decide +kernel),
    Sql.upperChar_eq_iff (by decide) (by decide +kernel)⟩

theorem fixed_newline : Fixed '\n' :=
  ⟨Sql.foldChar_eq_iff (by decide) (by decide +kernel),
    Sql.upperChar_eq_iff (by decide) (by decide +kernel)⟩

variable {d : Char} {s : Text}

theorem Fixed.mem_toLower (h : Fixed d) : d ∈ toLower s ↔ d ∈ s := by
  simp [toLower, h.fold]

theorem Fixed.mem_toUpper (h : Fixed d) : d ∈ toUpper s ↔ d ∈ s := by
  simp [toUpper, h.upper]

theorem Fixed.mem_capFirst (h : Fixed d) : d ∈ capFirst s ↔
    d ∈ (s.dropWhile isWhiteSpace).rdropWhile isWhiteSpace := by
  unfold capFirst
  simp only
  split_ifs
  · rw [h.mem_toUpper, h.mem_toLower]
  · rw [mem_append, h.mem_toUpper, h.mem_toLower, ← mem_append, take_append_drop, h.mem_toLower]

theorem mem_of_mem_trim (h : d ∈ (s.dropWhile isWhiteSpace).rdropWhile isWhiteSpace) : d ∈ s :=
  (dropWhile_suffix _).subset ((List.rdropWhile_prefix _ _).subset h)

theorem mem_dropWhile_of_not {p : Char → Bool} (hd : p d = false) (h : d ∈ s) :
    d ∈ s.dropWhile p := by
  rw [← takeWhile_append_dropWhile (p := p) (l := s), mem_append] at h
  rcases h with h | h
  · have := mem_takeWhile_imp h
    rw [hd] at this
    cases this
  · exact h

theorem quote_mem_capFirst : quote ∈ capFirst s ↔ quote ∈ s := by
  rw [fixed_quote.mem_capFirst]
  refine ⟨mem_of_mem_trim, fun h => ?_⟩
  have hdrop : quote ∈ s.dropWhile isWhiteSpace := mem_dropWhile_of_not (by decide) h
  rw [List.rdropWhile, mem_reverse]
  exact mem_dropWhile_of_not (by decide) (mem_reverse.2 hdrop)

theorem newline_mem_capFirst (h : '\n' ∈ capFirst s) : '\n' ∈ s :=
  mem_of_mem_trim (fixed_newline.mem_capFirst.1 h)

end Characters

section Parse

variable {query name state : Text} {p : QueryParams}

theorem namesOf_ok (stateAbbr : Text) (h : partsOf name ≠ []) : ∃ p,
    namesOf name stateAbbr = .ok p ∧ p.firstName = (partsOf name).headD [] ∧
      p.lastName = lastPart (partsOf name) ∧ p.stateAbbr = stateAbbr := by
  unfold namesOf
  rcases hparts : partsOf name with _ | ⟨first, _ | ⟨middle, _ | ⟨last, rest⟩⟩⟩
  · exact absurd hparts h
  · exact ⟨_, rfl, rfl, rfl, rfl⟩
  · exact ⟨_, rfl, rfl, rfl, rfl⟩
  · exact ⟨_, rfl, rfl, rfl, rfl⟩

theorem parts_of_namesOf {stateAbbr : Text} (h : namesOf name stateAbbr = .ok p) :
    partsOf name ≠ [] ∧ p.firstName = (partsOf name).headD [] ∧
      p.lastName = lastPart (partsOf name) ∧ p.stateAbbr = stateAbbr := by
  have hne : partsOf name ≠ [] := by
    intro hnil
    rw [namesOf, hnil] at h
    cases h
  obtain ⟨p', hp', hfirst, hlast, hstate⟩ := namesOf_ok stateAbbr hne
  obtain rfl : p' = p := Except.ok.inj (hp'.symm.trans h)
  exact ⟨hne, hfirst, hlast, hstate⟩

theorem stateOf_ok_iff : (∃ st, stateOf state = .ok st) ↔
    (containsKey stateAbbrByName state = true → toLower state = state) := by
  unfold stateOf
  split_ifs with hname habbr
  · rw [forall_prop_of_true hname]
    obtain ⟨e, he, hkey⟩ := containsKey_iff.1 hname
    constructor
    · rintro ⟨st, hst⟩
      rcases hfind : stateAbbrByName.find? fun e => e.1 = state with _ | e'
      · rw [hfind] at hst
        cases hst
      · have hmem : state ∈ stateKeys := mem_stateKeys.2
          (.inl ⟨e', mem_of_find?_eq_some hfind, by simpa using find?_some hfind⟩)
        exact (stateKeys_proper _ hmem).1
    · intro hlower
      rcases hfind : stateAbbrByName.find? fun e => e.1 = state with _ | e'
      · have hnone := find?_eq_none.1 hfind e he
        rw [hkey, hlower] at hnone
        simp at hnone
      · exact ⟨e'.2, by rw [hfind]⟩
  · exact iff_of_true ⟨_, rfl⟩ fun h => absurd h hname
  · exact iff_of_true ⟨_, rfl⟩ fun h => absurd h hname

theorem not_mem_stateKeys {d : Char} (hd : isNameChar d = false) {k : Text} (hk : k ∈ stateKeys) :
    d ∉ k := by
  intro hmem
  have := all_eq_true.1 (stateKeys_proper k hk).2 d hmem
  rw [hd] at this
  cases this

theorem not_mem_state {d : Char} (hd : Fixed d) (hname : isNameChar d = false) {st : Text}
    (h : stateOf state = .ok st) : d ∉ st := by
  unfold stateOf at h
  split_ifs at h with hcontains habbr
  · split at h
    · rename_i e he
      cases h
      intro hmem
      have := all_eq_true.1 (stateAbbrs_proper e (mem_of_find?_eq_some he)) d hmem
      rw [hname] at this
      cases this
    · cases h
  · cases h
    obtain ⟨e, he, hkey⟩ := containsKey_iff.1 habbr
    rw [← hd.mem_toLower, ← hkey]
    exact not_mem_stateKeys hname (mem_stateKeys.2 (.inr ⟨e, he, rfl⟩))
  · cases h
    simp

theorem parse_ok_iff : parseSearchQuery query = .ok p ↔ ∃ st,
    (∀ state ∈ (cutState query).2, stateOf state = .ok st) ∧
      ((cutState query).2 = none → st = []) ∧ namesOf (cutState query).1 st = .ok p := by
  unfold parseSearchQuery
  rcases (cutState query).2 with _ | state
  · simp
  · simp [bind_ok_iff]

theorem harmless_iff : Harmless query ↔
    ∃ p, parseSearchQuery query = .ok p ∧ quote ∉ p.firstName ∧ quote ∉ p.lastName := by
  constructor
  · intro h
    have hstate : ∃ st, (∀ state ∈ (cutState query).2, stateOf state = .ok st) ∧
        ((cutState query).2 = none → st = []) := by
      rcases hcut : (cutState query).2 with _ | state
      · exact ⟨[], by simp, fun _ => rfl⟩
      · obtain ⟨st, hst⟩ := stateOf_ok_iff.2 (h.lower state hcut)
        exact ⟨st, by simpa using hst, by simp⟩
    obtain ⟨st, hst, hnone⟩ := hstate
    obtain ⟨p, hp, hfirst, hlast, -⟩ := namesOf_ok st h.named
    refine ⟨p, parse_ok_iff.2 ⟨st, hst, hnone, hp⟩, ?_, ?_⟩
    · rw [hfirst]
      exact h.first
    · rw [hlast]
      exact h.last
  · rintro ⟨p, hparse, hfirst, hlast⟩
    obtain ⟨st, hst, -, hp⟩ := parse_ok_iff.1 hparse
    obtain ⟨hne, hf, hl, -⟩ := parts_of_namesOf hp
    exact ⟨hne, fun state hstate => stateOf_ok_iff.1 ⟨st, hst state hstate⟩, hf ▸ hfirst,
      hl ▸ hlast⟩

theorem not_mem_stateAbbr {d : Char} (hd : Fixed d) (hname : isNameChar d = false)
    (h : parseSearchQuery query = .ok p) : d ∉ p.stateAbbr := by
  obtain ⟨st, hst, hnone, hp⟩ := parse_ok_iff.1 h
  rw [(parts_of_namesOf hp).2.2.2]
  rcases hcut : (cutState query).2 with _ | state
  · rw [hnone hcut]
    simp
  · exact not_mem_state hd hname (hst state hcut)

end Parse

section Lines

variable {p : QueryParams} (n : ℕ) (u : Text)

theorem head_stateArgument (p : QueryParams) : (stateArgument n p).head? ≠ some quote := by
  unfold stateArgument
  split_ifs <;> simp [quote]

theorem lex_filler : lex (filler n ++ u) = lex u := by
  induction n with
  | zero => rfl
  | succ n ih =>
    rw [filler, replicate_succ, cons_append]
    exact ih

theorem lex_quote : lex (quote :: u) = (State.string []).lexFrom u := by
  rw [← lexFrom_start, lexFrom_cons]
  simp [State.next, begin, quote, Tsql.isBlank, startsWord, Tsql.isLetter, Char.isAlpha,
    Char.isUpper, Char.isLower, Char.isDigit]

theorem lex_comma_filler : lex (',' :: (filler n ++ quote :: u)) =
    ((State.string []).lexFrom u).map (.symbol ',' :: ·) := by
  rw [← lex_quote, ← lex_filler n (quote :: u), ← lexFrom_start, lexFrom_cons]
  rfl

theorem lex_exec : lex ("EXEC spSearchResultsDelete \x27".toList ++ u) =
    ((State.string []).lexFrom u).map
      ([.word "exec".toList, .word "spsearchresultsdelete".toList] ++ ·) := by
  have hread : State.start.read "EXEC spSearchResultsDelete \x27".toList =
      ([.word "exec".toList, .word "spsearchresultsdelete".toList], .string []) := by
    decide +kernel
  exact lexFrom_append hread u

theorem lex_stateArgument (h : quote ∉ p.stateAbbr) : lex (stateArgument n p) =
    some (if p.stateAbbr = [] then [] else [.symbol ',', .string (toUpper p.stateAbbr)]) := by
  unfold stateArgument
  split_ifs
  · rfl
  · rw [show '\x27' = quote from rfl, lex_comma_filler,
      lexFrom_literal (u := []) (mt fixed_quote.mem_toUpper.1 h) (by simp)]
    rfl

theorem lex_execLine_iff (m n : ℕ) (h : quote ∉ p.stateAbbr) :
    lex (execLine m n p) = some (execTokens p) ↔ quote ∉ p.firstName ∧ quote ∉ p.lastName := by
  unfold execLine execTokens
  rw [lex_exec, cons_append]
  rw [← quote_mem_capFirst (s := p.firstName), ← quote_mem_capFirst (s := p.lastName)]
  generalize Token.word "exec".toList = exec
  generalize Token.word "spsearchresultsdelete".toList = delete
  constructor
  · intro hlex
    simp only [cons_append, nil_append, Option.map_eq_some_iff, List.cons.injEq,
      true_and, exists_eq_right] at hlex
    have hfirst := no_quote_of_literal (by simp [quote]) hlex
    refine ⟨hfirst, ?_⟩
    rw [show '\x27' = quote from rfl, lexFrom_literal hfirst (by simp [quote]),
      lex_comma_filler] at hlex
    simp only [Option.map_map, Option.map_eq_some_iff, Function.comp_apply, List.cons.injEq,
      true_and, exists_eq_right] at hlex
    exact no_quote_of_literal (head_stateArgument n p) hlex
  · rintro ⟨hfirst, hlast⟩
    rw [show '\x27' = quote from rfl, lexFrom_literal hfirst (by simp [quote]), lex_comma_filler,
      lexFrom_literal hlast (head_stateArgument n p), lex_stateArgument n h]
    rfl

theorem newline_execLine (m n : ℕ) (hfirst : '\n' ∉ p.firstName) (hlast : '\n' ∉ p.lastName)
    (hstate : '\n' ∉ p.stateAbbr) : '\n' ∉ execLine m n p := by
  have hfiller : ∀ k, '\n' ∉ filler k := fun k => by simp [filler, mem_replicate]
  have hargument : '\n' ∉ stateArgument n p := by
    unfold stateArgument
    split_ifs
    · simp
    · simp [hfiller, fixed_newline.mem_toUpper, hstate]
  have hexec : '\n' ∉ "EXEC spSearchResultsDelete \x27".toList := by decide +kernel
  unfold execLine
  generalize "EXEC spSearchResultsDelete \x27".toList = exec at hexec
  simp only [mem_append, mem_cons, not_or]
  exact ⟨hexec, mt newline_mem_capFirst hfirst, by decide, by decide, hfiller _, by decide,
    mt newline_mem_capFirst hlast, by decide, hargument⟩

end Lines

section Links

variable {c : Char} {s t query : Text}

theorem linkAt_query {rest : Text} (h : linkAt s = some (query, rest)) :
    query.all isQueryChar = true := by
  simp only [linkAt, Option.bind_eq_bind, Option.bind_eq_some_iff, Option.pure_def,
    Option.some.injEq, Prod.mk.injEq] at h
  obtain ⟨-, -, -, -, -, -, u, -, rfl, -⟩ := h
  exact all_takeWhile

theorem linksFrom_query : ∀ {n : ℕ} {s : Text}, query ∈ linksFrom n s → query.all isQueryChar = true
  | 0, _, h => by simp [linksFrom] at h
  | n + 1, [], h => by simp [linksFrom] at h
  | n + 1, c :: s, h => by
    rw [linksFrom] at h
    split at h
    · rename_i q rest hlink
      rcases mem_cons.1 h with rfl | h
      · exact linkAt_query hlink
      · exact linksFrom_query h
    · exact linksFrom_query h

theorem mem_removeEscapes : ∀ {s : Text}, c ∈ removeEscapes s → c ∈ s := by
  intro s
  fun_induction removeEscapes s with
  | case1 s ih => exact fun h => .tail _ (.tail _ (.tail _ (ih h)))
  | case2 d s hd ih =>
    intro h
    rcases mem_cons.1 h with rfl | h
    · exact mem_cons_self
    · exact .tail _ (ih h)
  | case3 => exact id

theorem not_mem_query {selection : List (Option Text)} (hc : isQueryChar c = false)
    (h : query ∈ queriesOf selection) : c ∉ query := by
  obtain ⟨b, -, l, hl, rfl⟩ := mem_queriesOf.1 h
  intro hmem
  have := all_eq_true.1 (linksFrom_query hl) _ (mem_removeEscapes hmem)
  rw [hc] at this
  cases this

theorem mem_of_splitIn : ∀ {s name state : Text}, splitIn s = some (name, state) → c ∈ name → c ∈ s
  | [], name, state, h, hc => by cases h
  | d :: s, name, state, h, hc => by
    rw [splitIn] at h
    split at h
    · cases h
      cases hc
    · obtain ⟨q, hq, heq⟩ := Option.map_eq_some_iff.1 h
      cases heq
      rcases mem_cons.1 hc with rfl | hc
      · exact mem_cons_self
      · exact .tail _ (mem_of_splitIn hq hc)

theorem mem_of_stripHyphen (h : c ∈ stripHyphen s) : c ∈ s := by
  unfold stripHyphen at h
  split_ifs at h
  · exact mem_of_mem_dropLast h
  · exact h

theorem mem_of_cutState (h : c ∈ (cutState query).1) : c ∈ query := by
  unfold cutState at h
  split at h
  · rename_i hsplit
    exact mem_of_stripHyphen (mem_of_splitIn hsplit h)
  · exact mem_of_stripHyphen h

theorem mem_of_splitOn : ∀ {s t : Text} {c : Char}, t ∈ s.splitOn '-' → c ∈ t → c ∈ s
  | [], t, c, ht, hc => by
    rw [splitOn_nil, mem_singleton] at ht
    rw [ht] at hc
    exact hc
  | d :: s, t, c, ht, hc => by
    rw [splitOn_cons_eq_if_modifyHead] at ht
    split_ifs at ht
    · rcases mem_cons.1 ht with rfl | ht
      · cases hc
      · exact .tail _ (mem_of_splitOn ht hc)
    · obtain ⟨a, as, hs⟩ := exists_cons_of_ne_nil (splitOn_ne_nil '-' s)
      have hparts : ∀ t ∈ a :: as, ∀ c ∈ t, c ∈ s := fun t ht c => mem_of_splitOn (hs ▸ ht)
      rw [hs, modifyHead_cons, mem_cons] at ht
      rcases ht with rfl | ht
      · rcases mem_cons.1 hc with rfl | hc
        · exact mem_cons_self
        · exact .tail _ (hparts a mem_cons_self c hc)
      · exact .tail _ (hparts t (.tail _ ht) c hc)

theorem mem_of_partsOf (ht : t ∈ partsOf s) (hc : c ∈ t) : c ∈ s :=
  mem_of_splitOn (mem_filter.1 ht).1 hc

theorem mem_of_headD {parts : List Text} (h : c ∈ parts.headD []) : ∃ t ∈ parts, c ∈ t := by
  rcases parts with _ | ⟨t, parts⟩
  · cases h
  · exact ⟨t, mem_cons_self, h⟩

theorem mem_of_lastPart {parts : List Text} (h : c ∈ lastPart parts) : ∃ t ∈ parts, c ∈ t := by
  unfold lastPart at h
  split at h
  · exact ⟨_, by simp, h⟩
  · exact ⟨_, by simp, h⟩
  · cases h

theorem mem_of_names {p : QueryParams} (hp : parseSearchQuery query = .ok p)
    (hc : c ∈ p.firstName ∨ c ∈ p.lastName) : c ∈ query := by
  obtain ⟨st, -, -, hnames⟩ := parse_ok_iff.1 hp
  obtain ⟨-, hfirst, hlast, -⟩ := parts_of_namesOf hnames
  have hpart : ∃ t ∈ partsOf (cutState query).1, c ∈ t := by
    rcases hc with hc | hc
    · exact mem_of_headD (hfirst ▸ hc)
    · exact mem_of_lastPart (hlast ▸ hc)
  obtain ⟨t, ht, hct⟩ := hpart
  exact mem_of_cutState (mem_of_partsOf ht hct)

end Links

section Script

variable {o : KeyOrder} {t : Traces} {queries : List Text} {e : QueryParams}

theorem parsed_of_entry (h : e ∈ entriesOf o (paramsOf queries)) :
    ∃ q ∈ queries, parseSearchQuery q = .ok e := by
  obtain ⟨a, b, hps, -⟩ := mem_entries_iff.1 h
  exact mem_paramsOf.1 (hps ▸ by simp)

theorem lex_lineOf_iff (h : e ∈ entriesOf o (paramsOf queries)) :
    lex (lineOf o (paramsOf queries) e) = some (execTokens e) ↔
      quote ∉ e.firstName ∧ quote ∉ e.lastName := by
  obtain ⟨q, -, hparse⟩ := parsed_of_entry h
  exact lex_execLine_iff _ _ (not_mem_stateAbbr fixed_quote (by decide) hparse)

theorem comments_eq_nil (h : ∀ q ∈ queries, ∃ p, parseSearchQuery q = .ok p) :
    comments t queries = [] := by
  refine flatMap_eq_nil_iff.2 fun q hq => ?_
  obtain ⟨p, hp⟩ := h q hq
  rw [hp]

theorem mem_commandLines {ps : List QueryParams} {line : Text} :
    line ∈ commandLines o ps ↔ ∃ e ∈ entriesOf o ps, line = lineOf o ps e := by
  simp only [commandLines, sortedEntries, mem_map, mem_insertionSort, lineOf, eq_comm (a := line)]

theorem newline_commandLines {selection : List (Option Text)} :
    ∀ line ∈ commandLines o (paramsOf (queriesOf selection)), '\n' ∉ line := by
  intro line hline
  obtain ⟨e, he, rfl⟩ := mem_commandLines.1 hline
  obtain ⟨q, hq, hparse⟩ := parsed_of_entry he
  have hnewline : '\n' ∉ q := not_mem_query (by decide) hq
  exact newline_execLine _ _ (fun hn => hnewline (mem_of_names hparse (.inl hn)))
    (fun hn => hnewline (mem_of_names hparse (.inr hn)))
    (not_mem_stateAbbr fixed_newline (by decide) hparse)

theorem splitOn_lines : ∀ {lines : List Text}, (∀ line ∈ lines, '\n' ∉ line) →
    (lines.flatMap (· ++ ['\n'])).splitOn '\n' = lines ++ [[]]
  | [], _ => by simp
  | line :: lines, h => by
    rw [flatMap_cons, append_assoc, singleton_append,
      splitOn_append_cons_self_of_not_mem (h line mem_cons_self),
      splitOn_lines fun l hl => h l (.tail _ hl)]
    rfl

theorem exists_indented {script : Text} (h : ['\n', ' '] <:+: script) :
    ∃ l, ' ' :: l ∈ script.splitOn '\n' := by
  obtain ⟨a, b, rfl⟩ := h
  obtain ⟨l, ls, hb⟩ := exists_cons_of_ne_nil (splitOn_ne_nil '\n' b)
  refine ⟨l, ?_⟩
  rw [append_assoc, cons_append, splitOn_append_cons_self, cons_append,
    nil_append, splitOn_cons_eq_if_modifyHead, hb]
  simp

theorem not_line_of_indented {ps : List QueryParams} (l : Text) :
    ¬ (' ' :: l = [] ∨ IsComment (' ' :: l) ∨ ∃ e ∈ entriesOf o ps, ' ' :: l = lineOf o ps e) := by
  rintro (h | ⟨h, -⟩ | ⟨e, -, h⟩)
  · cases h
  · exact absurd (cons_prefix_cons.1 h).1 (by decide)
  · exact absurd (List.cons.inj h).1 (by decide)

theorem newline_trace (t : Traces) : ['\n', ' '] <:+: t.trace := by
  have hframes : ['\n', ' '] <:+: "\r\n".toList ++
      "   at OptOutAddIn.OptOutHelper.CopyToClipboard(Dictionary`2 dictQueries)".toList := by
    decide +kernel
  unfold Traces.trace Traces.copyFrame
  rw [← append_assoc, append_assoc t.parseFrame]
  exact hframes.trans (infix_append _ _ _)

theorem newline_comments {q : Text} {x : ParseExn} (hq : q ∈ queries)
    (hx : parseSearchQuery q = .error x) : ['\n', ' '] <:+: comments t queries := by
  have hcomment : t.trace <:+: commentOf t q x := infix_append _ _ _
  have hmem : commentOf t q x <:+: comments t queries := by
    obtain ⟨before, after, rfl⟩ := append_of_mem hq
    refine ⟨comments t before, comments t after, ?_⟩
    simp [comments, hx]
  exact ((newline_trace t).trans hcomment).trans hmem

end Script

section Commands

variable (o : KeyOrder) (t : Traces) {selection : List (Option Text)}

theorem onlyCommands_of_harmless (h : ∀ q ∈ queriesOf selection, Harmless q) :
    OnlyCommands o t selection := by
  intro script hscript
  unfold processSelection copyToClipboard at hscript
  split_ifs at hscript
  · cases hscript
  have hparsed : ∀ q ∈ queriesOf selection, ∃ p, parseSearchQuery q = .ok p := fun q hq =>
    (harmless_iff.1 (h q hq)).imp fun _ hp => hp.1
  rw [comments_eq_nil hparsed, nil_append, Option.mem_some_iff] at hscript
  subst hscript
  constructor
  · intro line hline
    rw [splitOn_lines newline_commandLines, mem_append, mem_singleton] at hline
    rcases hline with hline | hline
    · exact .inr (.inr (mem_commandLines.1 hline))
    · exact .inl hline
  · intro e he
    obtain ⟨q, hq, hparse⟩ := parsed_of_entry he
    obtain ⟨p, hp, hquotes⟩ := harmless_iff.1 (h q hq)
    obtain rfl : p = e := Except.ok.inj (hp.symm.trans hparse)
    exact (lex_lineOf_iff he).2 hquotes

theorem quote_of_key {e p : QueryParams} {q : Text} (hq : parseSearchQuery q = .ok e)
    (hsame : o.same e.key p.key = true) (hp : quote ∈ p.firstName ∨ quote ∈ p.lastName) :
    quote ∈ e.firstName ∨ quote ∈ e.lastName := by
  have hkey : quote ∈ p.key := by
    rcases hp with hp | hp <;> simp [QueryParams.key, hp]
  obtain ⟨hep, hpe⟩ := KeyOrder.same_iff.1 hsame
  have hmem : quote ∈ e.key := o.apostrophe _ _ hpe hep hkey
  have hcomma : quote ≠ ',' := by decide
  simp only [QueryParams.key, mem_append, mem_cons, hcomma, false_or] at hmem
  rcases hmem with hmem | hmem | hmem
  · exact .inr hmem
  · exact .inl hmem
  · exact absurd hmem (not_mem_stateAbbr fixed_quote (by decide) hq)

variable {o t} in
theorem harmless_of_onlyCommands (h : OnlyCommands o t selection) {q : Text}
    (hq : q ∈ queriesOf selection) : Harmless q := by
  have hne : queriesOf selection ≠ [] := ne_nil_of_mem hq
  obtain ⟨hlines, htokens⟩ := h _ (if_neg hne)
  rcases hparse : parseSearchQuery q with x | p
  · obtain ⟨l, hl⟩ := exists_indented
      ((newline_comments (t := t) hq hparse).trans (prefix_append _ _).isInfix)
    exact absurd (hlines _ hl) (not_line_of_indented l)
  · refine harmless_iff.2 ⟨p, hparse, not_or.1 fun hp => ?_⟩
    obtain ⟨e, he, hsame⟩ := exists_leads (o := o) (mem_paramsOf.2 ⟨q, hq, hparse⟩)
    have hentry := mem_entries_iff.2 he
    obtain ⟨q', hq', hparse'⟩ := parsed_of_entry hentry
    obtain ⟨hfirst, hlast⟩ := (lex_lineOf_iff hentry).1 (htokens e hentry)
    rcases quote_of_key o hparse' hsame hp with hmem | hmem
    · exact hfirst hmem
    · exact hlast hmem

/-- The script has only comments and the commands of the links exactly if every query is harmless.
-/
theorem onlyCommands_iff (selection : List (Option Text)) :
    OnlyCommands o t selection ↔ ∀ q ∈ queriesOf selection, Harmless q :=
  ⟨fun h _ => harmless_of_onlyCommands h, onlyCommands_of_harmless o t⟩

def annOLee : Text :=
  "See <http://www.publicrecords.com/records/Ann-O\x27Lee-in-oh>.".toList

theorem annOLee_not_onlyCommands : ¬ ∃ o t, OnlyCommands o t [some annOLee] := by
  rintro ⟨o, t, h⟩
  have hq : "Ann-O\x27Lee-in-oh".toList ∈ queriesOf [some annOLee] := by decide +kernel
  have hlast := (harmless_of_onlyCommands h hq).last
  revert hlast
  decide +kernel

end Commands

end AciX.OptOut
