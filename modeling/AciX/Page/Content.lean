import AciX.Context
import AciX.Tsql.Batch

/-!
# The content of a page

`Page.GetContent` takes a whole `WHERE` clause from the client, looks for ten words in it and hands
it to `spPageGetContent`, which appends it to the `SELECT` of each section that has a view and runs
all of these as one batch. `onlySelects_iff` says for which clauses the batch consists of these
`SELECT`s: those that are blank, and those that are closed and tame.
-/

namespace AciX

open List hiding lex

/-- What the culture of the thread, the code page and the server's hash decide. -/
structure ContentEnv where
  toLower : Text → Text
  encode : Text → Text
  sha1 : Text → ℤ

structure VariationCount where
  blockID : ℤ
  sectionID : ℤ
  blockName : Text
  sectionName : Text
  variationCount : ℕ

def invalidWords : List Text :=
  ["select", "insert", "update", "delete", "drop", "create", "alter", "exec", "dbcc",
    "truncate"].map String.toList

namespace ContentEnv

variable (env : ContentEnv)

def accepts : Option Text → Bool
  | none => true
  | some strWhere => invalidWords.all fun word => !Text.contains (env.toLower strWhere) word

def whereClause (strWhere : Option Text) : Text :=
  (strWhere.map fun t => env.encode (env.toLower t)).getD []

/-- `ABS` overflows on the least integer. -/
def fnHashModString (divisor : ℕ) (s : Text) : Except Exn ℕ :=
  if env.sha1 s = -2147483648 then .error .sql else .ok ((env.sha1 s).natAbs % divisor)

end ContentEnv

def isBlankText (s : Text) : Bool := Sql.textEq s []

def selectPart : Text := "\n    SELECT DISTINCT\n      ".toList

def sectionPart : Text := "'SectionID',".toList

def variationPart : Text := "'VariationID',".toList

def fromPart : Text := "\n      FROM ".toList

def wherePart : Text := " \n      WHERE ".toList

namespace VariationRow

variable (v : VariationRow)

def hasView : Bool := !isBlankText (v.viewFieldNames.getD []) && !isBlankText (v.viewName.getD [])

def selectText : Text :=
  selectPart ++ intText v.sectionID ++ sectionPart ++ intText v.id ++ variationPart ++
    v.viewFieldNames.getD [] ++ fromPart ++ v.viewName.getD []

end VariationRow

namespace Db

variable (db : Db) (env : ContentEnv)

def xvVariationCounts : List VariationCount :=
  (Sql.join (fun b s => b.id = s.blockID) db.blocks db.sections).filterMap fun (b, s) =>
    let n := (db.variations.filter fun v => v.sectionID = s.id && v.isEnabled).length
    if b.isEnabled && s.isEnabled && n ≠ 0 then
      some
        { blockID := b.id
          sectionID := s.id
          blockName := b.blockName
          sectionName := s.sectionName
          variationCount := n }
    else none

/-- `_variation_index`: the sections of the page, each with the index of a variation. -/
def variationIndex (pageCode : Text) (whereClause : Text) : Except Exn (List (ℤ × ℕ)) :=
  let pages := db.pages.filter fun p =>
    p.pageCode.any (Sql.textEq · (Sql.varchar 30 (env.encode pageCode)))
  let counts := pages.flatMap fun p =>
    (db.pageBlocks.filter (·.pageID = p.id)).flatMap fun pb =>
      db.xvVariationCounts.filter (·.blockID = pb.blockID)
  counts.mapM fun x =>
    (env.fnHashModString x.variationCount (x.blockName ++ x.sectionName ++ whereClause)).map
      (x.sectionID, ·)

def numberedVariations (index : List (ℤ × ℕ)) : List (VariationRow × ℕ) :=
  let rows := ((Sql.join (fun v i => i.1 = v.sectionID) (db.variations.filter (·.isEnabled))
    index).map Prod.fst).insertionSort (·.id ≤ ·.id)
  rows.zipIdx.map fun (v, i) => (v, ((rows.take i).filter (·.sectionID = v.sectionID)).length)

def selectedVariations (index : List (ℤ × ℕ)) : List VariationRow :=
  (Sql.join (fun v i => i.1 = v.1.sectionID && i.2 = v.2) (db.numberedVariations index)
    index).map fun x => x.1.1

def contentBatch (selected : List VariationRow) (whereClause : Text) : Text :=
  (selected.filter (·.hasView)).flatMap fun v =>
    '\n' :: (v.selectText ++ if isBlankText whereClause then [] else wherePart ++ whereClause)

def spPageGetContent (pageCode whereClause : Text) : Except Exn (List VariationRow × Text) :=
  (db.variationIndex env pageCode whereClause).map fun index =>
    (db.selectedVariations index, contentBatch (db.selectedVariations index) whereClause)

def getContent (pageCode : Text) (strWhere : Option Text) :
    Except Exn (List VariationRow × Text) :=
  if env.accepts strWhere then db.spPageGetContent env pageCode (env.whereClause strWhere)
  else .error .invalidWhereClause

end Db

open Tsql

def fromWord : Token := keyword "from"

def whereWord : Token := keyword "where"

def comma : Token := .symbol ','

def intTokens (n : ℤ) : List Token :=
  if n < 0 then [.symbol '-', .number (Nat.toDigits 10 n.natAbs)]
  else [.number (Nat.toDigits 10 n.natAbs)]

namespace VariationRow

variable (v : VariationRow)

def selectTokens : List Token :=
  select :: keyword "distinct" :: (intTokens v.sectionID ++ .string "SectionID".toList :: comma ::
    (intTokens v.id ++ .string "VariationID".toList :: comma ::
      ((lex (v.viewFieldNames.getD [])).getD [] ++
        fromWord :: (lex (v.viewName.getD [])).getD [])))

/-- The fields and the view are what their names say: closed texts in which no statement begins or
ends, and which leave no parenthesis and no set operator open. -/
def Plain : Prop :=
  ∃ f n lastField lastName, lex (v.viewFieldNames.getD []) = some f ∧
    lex (v.viewName.getD []) = some n ∧ scan 0 (some comma) f = some (0, lastField) ∧
    scan 0 (some fromWord) n = some (0, lastName) ∧ joins lastName = false

end VariationRow

/-- The batch consists of the `SELECT`s of the selected variations that have a view, one for each,
and all of them are restricted in the same way. -/
def Restricts (selected : List VariationRow) (batch : Text) : Prop :=
  ∃ restriction, (lex batch).map statements
    = some ((selected.filter (·.hasView)).map (·.selectTokens ++ restriction))

/-- Whatever the tables hold, the clause only restricts the `SELECT`s. -/
def OnlySelects (env : ContentEnv) (strWhere : Option Text) : Prop :=
  ∀ (db : Db) pageCode selected batch, (∀ v ∈ db.variations, v.hasView = true → v.Plain) →
    db.getContent env pageCode strWhere = .ok (selected, batch) → Restricts selected batch

/-- The clause is blank, or its tokens stay inside the query it is put into. -/
def SafeClause (clause : Text) : Prop :=
  isBlankText clause = true ∨ ∃ ts, lex clause = some ts ∧ tame (some whereWord) ts = true

theorem inert_of_clauseWord : ∀ w ∈ [fromWord, whereWord, keyword "distinct"], Inert w := by
  have hwords : ∀ w ∈ [fromWord, whereWord, keyword "distinct"], w.isWord = true ∧ w ≠ select ∧
      w ≠ keyword "fetch" ∧ w ≠ keyword "end" ∧ w ≠ conversation ∧
      statementWords.contains w = false ∧ reservedWords.contains w = true := by
    decide +kernel
  intro w hw
  obtain ⟨hword, hs, hf, he, hc, hb, hr⟩ := hwords w hw
  exact inert_of hword hs hf he hc hb hr

theorem inert_from : Inert fromWord := inert_of_clauseWord _ (by simp)

theorem inert_where : Inert whereWord := inert_of_clauseWord _ (by simp)

theorem inert_distinct : Inert (keyword "distinct") := inert_of_clauseWord _ (by simp)

theorem inert_comma : Inert comma := inert_of_not_word rfl (by decide) (by decide) (by decide)
    (by decide)

theorem scan_intTokens (n : ℤ) {depth : ℕ} {prev : Option Token} (ts : List Token) :
    scan depth prev (intTokens n ++ ts)
      = scan depth (some (.number (Nat.toDigits 10 n.natAbs))) ts := by
  have hnumber : Inert (.number (Nat.toDigits 10 n.natAbs)) :=
    inert_of_not_word rfl nofun nofun nofun nofun
  have hdash : Inert (.symbol '-') := inert_of_not_word rfl (by decide) (by decide) (by decide)
    (by decide)
  unfold intTokens
  split_ifs
  · rw [cons_append, scan_inert hdash, cons_append, scan_inert hnumber]
    rfl
  · rw [cons_append, scan_inert hnumber]
    rfl

theorem read_intText (n : ℤ) : ∃ o p, State.start.read (intText n)
    = (o, .number p (Nat.toDigits 10 n.natAbs)) ∧
      intTokens n = o ++ [.number (Nat.toDigits 10 n.natAbs)] := by
  have hdigits : ∀ c ∈ Nat.toDigits 10 n.natAbs, c.isDigit = true := fun c hc =>
    Nat.isDigit_of_mem_toDigits (by decide) (by decide) hc
  unfold intText intTokens
  rcases hd : Nat.toDigits 10 n.natAbs with _ | ⟨c, t⟩
  · exact absurd hd Nat.toDigits_ne_nil
  rw [hd] at hdigits
  have hc : begin c = ([], .number (if c = '0' then .zero else .int) [c]) := by
    unfold begin
    rw [if_pos (hdigits c mem_cons_self)]
  have hp : (if c = '0' then Phase.zero else .int) = .zero ∨
      (if c = '0' then Phase.zero else .int) = .int := by
    split_ifs
    · exact .inl rfl
    · exact .inr rfl
  obtain ⟨p, hread⟩ := State.read_digits hp (t := [c]) fun c hc =>
    hdigits c (mem_cons_of_mem _ hc)
  have hplain : State.start.read (c :: t) = ([], .number p (c :: t)) := by
    rw [State.read, show State.start.next c = begin c from rfl, hc, hread]
    rfl
  split_ifs
  · refine ⟨[.symbol '-'], p, ?_, rfl⟩
    have hdash : State.dash.next c = ([.symbol '-'], (begin c).2) := by
      have hne : c ≠ '-' := by
        rintro rfl
        exact absurd (hdigits '-' mem_cons_self) (by decide)
      rw [State.next, if_neg hne, State.endBefore, hc]
      rfl
    have hread' : State.dash.read (c :: t) = ([.symbol '-'], .number p (c :: t)) := by
      rw [State.read, hdash, hc, hread]
      rfl
    rw [State.read, show State.start.next '-' = ([], .dash) from rfl, hread']
    rfl
  · exact ⟨[], p, hplain, rfl⟩

theorem read_int_append {s : Text} {x : List Token}
    (h : ∀ p t, (State.number p t).read s = (.number t :: x, .start)) (n : ℤ) :
    State.start.read (intText n ++ s) = (intTokens n ++ x, .start) := by
  obtain ⟨o, p, hread, htokens⟩ := read_intText n
  rw [State.read_append_of hread (h p _), htokens]
  simp

namespace VariationRow

variable {v : VariationRow}

theorem Plain.complete (h : v.Plain) : Complete [] v.selectTokens := by
  obtain ⟨f, n, lastField, lastName, hf, hn, hscanf, hscann, hj⟩ := h
  have hstring : ∀ t, Inert (.string t) := fun t =>
    inert_of_not_word rfl nofun nofun nofun nofun
  refine ⟨_, 0, lastName, rfl, ?_, fun _ => ⟨rfl, hj⟩⟩
  rw [hf, hn, scan_inert inert_distinct, scan_intTokens, scan_inert (hstring _),
    scan_inert inert_comma, scan_intTokens, scan_inert (hstring _), scan_inert inert_comma]
  have happ : scan 0 (some comma) (f ++ fromWord :: n) = scan 0 lastField (fromWord :: n) :=
    scan_append (by exact inert_from.neutral) hscanf
  rw [Option.getD_some, Option.getD_some, happ, scan_inert inert_from, hscann]

theorem Plain.read (h : v.Plain) : ∃ t x n, v.selectText = t ++ v.viewName.getD [] ∧
    v.selectTokens = x ++ n ∧ State.start.read t = (x, .start) ∧
    lex (v.viewName.getD []) = some n := by
  obtain ⟨f, n, -, -, hf, hn, -⟩ := h
  have hselect : State.start.read selectPart = ([select, keyword "distinct"], .start) := by decide
  have hsection : State.start.read (intText v.sectionID ++ sectionPart)
      = (intTokens v.sectionID ++ [.string "SectionID".toList, comma], .start) :=
    read_int_append (fun p t => by cases p <;> rfl) _
  have hvariation : State.start.read (intText v.id ++ variationPart)
      = (intTokens v.id ++ [.string "VariationID".toList, comma], .start) :=
    read_int_append (fun p t => by cases p <;> rfl) _
  have hfields : State.start.read (v.viewFieldNames.getD [] ++ fromPart)
      = (f ++ [fromWord], .start) := by
    have hfrom : State.start.read "      FROM ".toList = ([fromWord], .start) := by decide
    have := State.read_append_of (read_lex_newline hf (.inl rfl)) hfrom
    rwa [append_assoc] at this
  have hall := State.read_append_of hselect (State.read_append_of hsection
    (State.read_append_of hvariation hfields))
  refine ⟨_, _, n, ?_, ?_, hall, hn⟩
  · simp only [selectText, append_assoc]
  · simp only [selectTokens, hf, hn, Option.getD_some, append_assoc, cons_append,
      nil_append]

theorem Plain.lex_selectText (h : v.Plain) : lex v.selectText = some v.selectTokens := by
  obtain ⟨t, x, n, ht, hx, hread, hn⟩ := h.read
  rw [ht, hx, lex_of_read hread, hn]
  rfl

theorem Plain.lex_append_where (h : v.Plain) (clause : Text) :
    lex (v.selectText ++ (wherePart ++ clause))
      = (lex clause).map (v.selectTokens ++ whereWord :: ·) := by
  obtain ⟨t, x, n, ht, hx, hread, hn⟩ := h.read
  have hwhere : State.start.read "      WHERE ".toList = ([whereWord], .start) := by decide
  have hall := State.read_append_of (State.read_append_of hread (read_lex_newline hn (.inr rfl)))
    hwhere
  have htext : v.selectText ++ (wherePart ++ clause)
      = t ++ (v.viewName.getD [] ++ [' ', '\n']) ++ "      WHERE ".toList ++ clause := by
    rw [ht]
    simp only [append_assoc]
    rfl
  rw [htext, lex_of_read hall, hx]
  simp only [append_assoc, cons_append, nil_append]

end VariationRow

namespace Db

variable {db : Db} {env : ContentEnv}

theorem mem_selectedVariations {index : List (ℤ × ℕ)} {v : VariationRow}
    (h : v ∈ db.selectedVariations index) : v ∈ db.variations := by
  unfold selectedVariations numberedVariations at h
  obtain ⟨⟨⟨v', i⟩, j⟩, hj, rfl⟩ := mem_map.1 h
  obtain ⟨hv, -⟩ := Sql.mem_join.1 hj
  obtain ⟨⟨v'', k⟩, hk, heq⟩ := mem_map.1 hv
  cases heq
  have hrow := (mem_insertionSort _).1 (fst_mem_of_mem_zipIdx hk)
  obtain ⟨⟨v, i⟩, hi, rfl⟩ := mem_map.1 hrow
  exact (mem_filter.1 (Sql.mem_join.1 hi).1).1

theorem getContent_ok {pageCode : Text} {strWhere : Option Text} {selected : List VariationRow}
    {batch : Text} (h : db.getContent env pageCode strWhere = .ok (selected, batch)) :
    (∀ v ∈ selected, v ∈ db.variations) ∧
      batch = contentBatch selected (env.whereClause strWhere) := by
  unfold getContent at h
  split_ifs at h
  unfold spPageGetContent at h
  rcases hi : db.variationIndex env pageCode (env.whereClause strWhere) with e | index <;>
    rw [hi] at h
  · cases h
  · simp only [Except.map, Except.ok.injEq, Prod.mk.injEq] at h
    obtain ⟨rfl, rfl⟩ := h
    exact ⟨fun v hv => mem_selectedVariations hv, rfl⟩

theorem restricts_of_complete {selected : List VariationRow} {clause : Text} {x s : List Token}
    (hsemis : ∀ t ∈ s, t = semicolon)
    (hlex : ∀ v ∈ selected.filter (·.hasView),
      lex (v.selectText ++ if isBlankText clause then [] else wherePart ++ clause)
        = some (v.selectTokens ++ x ++ s))
    (hcomplete : ∀ v ∈ selected.filter (·.hasView), Complete s (v.selectTokens ++ x)) :
    Restricts selected (contentBatch selected clause) := by
  unfold Restricts contentBatch
  generalize selected.filter (·.hasView) = views at hlex hcomplete
  have htexts : lex ((views.map fun v => v.selectText ++
      if isBlankText clause then [] else wherePart ++ clause).map ('\n' :: ·)).flatten
        = some ((views.map (·.selectTokens ++ x)).map (· ++ s)).flatten := by
    refine lex_flatten ?_
    rw [map_map, List.forall₂_map_left_iff, List.forall₂_map_right_iff]
    exact List.forall₂_same.2 hlex
  have hstatements : statements ((views.map (·.selectTokens ++ x)).map (· ++ s)).flatten
      = views.map (·.selectTokens ++ x) := by
    refine statements_flatten hsemis fun s hs => ?_
    obtain ⟨v, hv, rfl⟩ := mem_map.1 hs
    exact hcomplete v hv
  refine ⟨x, ?_⟩
  rw [map_map] at htexts
  rw [flatMap_def]
  exact (congrArg (Option.map statements) htexts).trans (congrArg some hstatements)

theorem onlySelects_of_safeClause {strWhere : Option Text}
    (h : SafeClause (env.whereClause strWhere)) : OnlySelects env strWhere := by
  intro db pageCode selected batch hplain hok
  obtain ⟨hmem, rfl⟩ := getContent_ok hok
  have hviews : ∀ v ∈ selected.filter (·.hasView), v.Plain := by
    intro v hv
    obtain ⟨hv, hview⟩ := mem_filter.1 hv
    exact hplain v (hmem v hv) hview
  by_cases hb : isBlankText (env.whereClause strWhere) = true
  · refine restricts_of_complete (x := []) (s := []) (fun _ h => (by cases h))
      (fun v hv => ?_) fun v hv => ?_
    · rw [if_pos hb, append_nil, append_nil, append_nil]
      exact (hviews v hv).lex_selectText
    · rw [append_nil]
      exact (hviews v hv).complete
  · obtain ⟨ts, hts, htame⟩ := h.resolve_left hb
    refine restricts_of_complete (tame_iff.1 htame).1 (fun v hv => ?_)
      fun v hv => (hviews v hv).complete.append inert_where htame
    rw [if_neg hb, (hviews v hv).lex_append_where, hts, append_assoc, cons_append,
      body_append_afterBody]
    rfl

end Db

def contentVariation (id : ℤ) : VariationRow where
  id := id
  sectionID := id
  isEnabled := true
  viewName := some ['v']
  viewFieldNames := some ['f']

def contentDb (env : ContentEnv) (name : Text) (ids : List ℤ) : Db where
  pages := [{ id := 1, pageCode := some (Sql.varchar 30 (env.encode [])) }]
  pageBlocks := [{ pageID := 1, blockID := 1 }]
  blocks := [{ id := 1, blockName := name, isEnabled := true }]
  sections := ids.map fun id => { id := id, blockID := 1, sectionName := [], isEnabled := true }
  variations := ids.map contentVariation

theorem contentVariation_plain (id : ℤ) : (contentVariation id).Plain := by
  refine ⟨[.word ['f']], [.word ['v']], _, _, ?_, ?_, rfl, rfl, by decide⟩
  · show lex ['f'] = _
    decide
  · show lex ['v'] = _
    decide

section Reverse

variable {env : ContentEnv} {strWhere : Option Text} {name : Text}
  (haccepts : env.accepts strWhere = true)
  (hhash : env.sha1 (name ++ env.whereClause strWhere) ≠ -2147483648)
include haccepts hhash

theorem getContent_contentDb {ids : List ℤ} (hids : ids = [1] ∨ ids = [1, 2]) :
    (contentDb env name ids).getContent env [] strWhere
      = .ok (ids.map contentVariation,
          Db.contentBatch (ids.map contentVariation) (env.whereClause strWhere)) := by
  have hmod : env.fnHashModString 1 (name ++ env.whereClause strWhere) = .ok 0 := by
    unfold ContentEnv.fnHashModString
    rw [if_neg hhash, Nat.mod_one]
  have hindex : (contentDb env name ids).variationIndex env [] (env.whereClause strWhere)
      = .ok (ids.map fun id => (id, 0)) := by
    have hcounts : (contentDb env name ids).xvVariationCounts
        = ids.map fun id => ⟨1, id, name, [], 1⟩ := by
      rcases hids with rfl | rfl <;> rfl
    unfold Db.variationIndex
    rw [hcounts]
    rcases hids with rfl | rfl <;>
      simp [contentDb, hmod, Except.map, pure, Except.pure, bind, Except.bind]
  unfold Db.getContent Db.spPageGetContent
  rw [if_pos haccepts, hindex]
  have hselected : (contentDb env name ids).selectedVariations (ids.map fun id => (id, 0))
      = ids.map contentVariation := by
    rcases hids with rfl | rfl <;> rfl
  simp only [Except.map, hselected]

theorem restricts_contentDb (h : OnlySelects env strWhere) {ids : List ℤ}
    (hids : ids = [1] ∨ ids = [1, 2]) : Restricts (ids.map contentVariation)
      (Db.contentBatch (ids.map contentVariation) (env.whereClause strWhere)) := by
  refine h _ [] _ _ (fun v hv _ => ?_) (getContent_contentDb haccepts hhash hids)
  obtain ⟨id, -, rfl⟩ := mem_map.1 hv
  exact contentVariation_plain id

theorem safeClause_of_onlySelects (h : OnlySelects env strWhere) :
    SafeClause (env.whereClause strWhere) := by
  by_cases hb : isBlankText (env.whereClause strWhere) = true
  · exact .inl hb
  right
  obtain ⟨r₁, hone⟩ := restricts_contentDb haccepts hhash h (.inl rfl)
  obtain ⟨r₂, htwo⟩ := restricts_contentDb haccepts hhash h (.inr rfl)
  have hview : ∀ id, (contentVariation id).hasView = true := fun _ => rfl
  have hlex : ∀ id,
    lex ((contentVariation id).selectText ++ (wherePart ++ env.whereClause strWhere))
      = (lex (env.whereClause strWhere)).map ((contentVariation id).selectTokens ++ whereWord :: ·)
        :=
    fun id => (contentVariation_plain id).lex_append_where _
  simp only [Db.contentBatch, map_cons, map_nil, filter_cons, hview, if_true,
    filter_nil, flatMap_cons, flatMap_nil, append_nil, lex_newline] at hone htwo
  rw [if_neg hb] at hone htwo
  rw [hlex] at hone
  obtain ⟨ts, hts⟩ : ∃ ts, lex (env.whereClause strWhere) = some ts := by
    rcases hc : lex (env.whereClause strWhere) with _ | ts
    · rw [hc] at hone
      cases hone
    · exact ⟨ts, rfl⟩
  refine ⟨ts, hts, ?_⟩
  have hsecond := lex_append_newline ((hlex 1).trans (by rw [hts]; rfl))
    ((contentVariation 2).selectText ++ (wherePart ++ env.whereClause strWhere))
  rw [cons_append, lex_newline, hsecond, hlex, hts] at htwo
  rw [hts] at hone
  exact tame_of_statements inert_where (contentVariation_plain 1).complete
    (contentVariation_plain 2).complete ⟨r₁, Option.some.inj hone⟩ (Option.some.inj htwo)

end Reverse

/-- For every clause that is accepted: whatever the tables hold, the batch consists of the `SELECT`s
of the selected variations that have a view, exactly if the clause, as it reaches the procedure, is
blank, or closed and tame. -/
theorem onlySelects_iff {env : ContentEnv} {strWhere : Option Text}
    (haccepts : env.accepts strWhere = true)
    (hhash : ∃ name, env.sha1 (name ++ env.whereClause strWhere) ≠ -2147483648) :
    OnlySelects env strWhere ↔ SafeClause (env.whereClause strWhere) := by
  obtain ⟨name, hname⟩ := hhash
  exact ⟨safeClause_of_onlySelects haccepts hname, Db.onlySelects_of_safeClause⟩

def plainEnv : ContentEnv where
  toLower := toLower
  encode := id
  sha1 := fun _ => 0

theorem plainEnv_onlySelects :
    OnlySelects plainEnv (some "State='CA' AND (City LIKE 'San%')".toList) :=
  (onlySelects_iff (by decide) ⟨[], by decide⟩).2 (.inr ⟨_, rfl, by decide⟩)

/-- The clause is accepted, and adds a statement that stops the server. -/
theorem plainEnv_shutdown :
    let strWhere := some "1=1; shutdown".toList
    let db := contentDb plainEnv [] [1]
    plainEnv.accepts strWhere = true ∧ (∀ v ∈ db.variations, v.Plain) ∧
    db.getContent plainEnv [] strWhere = .ok ([contentVariation 1],
      Db.contentBatch [contentVariation 1] "1=1; shutdown".toList) ∧
    (lex (Db.contentBatch [contentVariation 1] "1=1; shutdown".toList)).map statements
      = some [(contentVariation 1).selectTokens ++
          [whereWord, .number ['1'], .symbol '=', .number ['1']], [keyword "shutdown"]] ∧
    ¬ OnlySelects plainEnv strWhere := by
  intro strWhere db
  have haccepts : plainEnv.accepts strWhere = true := by decide
  have hget : db.getContent plainEnv [] strWhere = .ok ([contentVariation 1],
      Db.contentBatch [contentVariation 1] "1=1; shutdown".toList) :=
    getContent_contentDb haccepts (by decide) (.inl rfl)
  have hstatements : (lex (Db.contentBatch [contentVariation 1] "1=1; shutdown".toList)).map
      statements = some [(contentVariation 1).selectTokens ++
        [whereWord, .number ['1'], .symbol '=', .number ['1']], [keyword "shutdown"]] := by
    decide +kernel
  have hplain : ∀ v ∈ db.variations, v.Plain := by
    intro v hv
    obtain ⟨id, -, rfl⟩ := mem_map.1 hv
    exact contentVariation_plain id
  refine ⟨haccepts, hplain, hget, hstatements, fun h => ?_⟩
  obtain ⟨r, hr⟩ := h db [] _ _ (fun v hv _ => hplain v hv) hget
  have hlen := congrArg (Option.map List.length) (hstatements.symm.trans hr)
  rw [Option.map_some, Option.map_some, length_map] at hlen
  exact absurd (Option.some.inj hlen) (by decide)

end AciX
