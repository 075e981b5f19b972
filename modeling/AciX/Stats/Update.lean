import AciX.Sql.Case
import AciX.Sql.Update

/-!
# Statistics of the API

A server reports how often each template was called, by method and status code, and `spStatsUpdate`
adds the entries to the rows of their period and client, and inserts a row for those that have none.
The update writes a row once, with one of the entries that join it, and the insert leaves out equal
entries. So what is reported is counted if each triple is reported once, and else only exceptionally
(`stats_conserved_iff`).
-/

namespace AciX.Stats

open List Sql

structure ApiStat where
  template : Text
  method : Text
  httpStatusCode : ℤ
  hits : ℤ
  totalMsecs : ℤ
  deriving DecidableEq

structure ApiStats where
  minTime : ℤ
  clientIP : Text
  stats : List ApiStat

structure TemplateRow where
  id : ℤ
  template : Text

structure StatsRow where
  apiTemplateID : Option ℤ
  logPeriod : Option ℤ
  clientIP : Option ℤ
  method : Option Text
  httpStatusCode : Option ℤ
  hits : Option ℤ
  totalMsecs : Option ℤ

structure StatsDb where
  templates : List TemplateRow := []
  stats : List StatsRow := []

structure StatsDb.Keys (db : StatsDb) : Prop where
  templates : Sql.Unique (fun t : TemplateRow => collate t.template) db.templates
  ids : Sql.Unique (fun t : TemplateRow => t.id) db.templates

structure Place where
  logPeriod : ℤ
  clientIP : Option ℤ

/-- What tells entries apart: the number of the template, the method and the status code. -/
abbrev Triple := ℤ × Text × ℤ

section Model

variable (ipAddrToInt : Text → Option ℤ) (xml : ApiStats) (db : StatsDb)

def logPeriod : ℤ :=
  let minutes := (xml.minTime + 30000) / 60000
  minutes - minutes % 60 % 5

def place : Place := ⟨logPeriod xml, ipAddrToInt (varchar 50 xml.clientIP)⟩

def newTemplates : List Text :=
  distinctOn collate ((xml.stats.map (·.template)).filter fun t =>
    !db.templates.any fun r => textEq r.template t)

def withTemplates : List TemplateRow :=
  db.templates ++ identity (fun t i => ⟨i, varchar 512 t⟩)
    (1 + maxFrom 0 (db.templates.map (·.id))) (newTemplates xml db)

def insertTemplates : Option (List TemplateRow) :=
  if (newTemplates xml db).all (fun t => (rtrim t).length ≤ 512) ∧
      maxFrom 0 (db.templates.map (·.id)) + (newTemplates xml db).length ≤ 32767 then
    some (withTemplates xml db)
  else none

variable (p : Place) (templates : List TemplateRow)

def templateID (template : Text) : ℤ :=
  ((templates.find? fun r => textEq r.template template).map (·.id)).getD 0

def joins (r : StatsRow) (e : ApiStat) : Bool :=
  eqNull r.apiTemplateID (some (templateID templates e.template)) &&
    eqNull r.logPeriod (some p.logPeriod) &&
    eqNull (r.method.map collate) (some (collate e.method)) &&
    eqNull r.httpStatusCode (some e.httpStatusCode) &&
    eqNull r.clientIP p.clientIP

def add (r : StatsRow) (e : ApiStat) : StatsRow :=
  { r with hits := r.hits.map (· + e.hits), totalMsecs := r.totalMsecs.map (· + e.totalMsecs) }

def inRange (r : StatsRow) : Bool :=
  r.hits.all (fun n => -2147483648 ≤ n ∧ n ≤ 2147483647) &&
    r.totalMsecs.all fun n => -9223372036854775808 ≤ n ∧ n ≤ 9223372036854775807

def updateStats (pick : ℕ → ℕ) (rows : List StatsRow) : Option (List StatsRow) :=
  let updated := updateFrom pick (joins p templates) add xml.stats rows
  if updated.all fun r => !xml.stats.any (joins p templates r) || inRange r then some updated
  else none

def triple (e : ApiStat) : Triple :=
  (templateID templates e.template, collate e.method, e.httpStatusCode)

def newStats (rows : List StatsRow) : List ApiStat :=
  distinctOn (fun e => (triple templates e, e.hits, e.totalMsecs))
    (xml.stats.filter fun e => !rows.any fun r => joins p templates r e)

def statsRow (e : ApiStat) : StatsRow where
  apiTemplateID := some (templateID templates e.template)
  logPeriod := some p.logPeriod
  clientIP := p.clientIP
  method := some (varchar 10 e.method)
  httpStatusCode := some e.httpStatusCode
  hits := some e.hits
  totalMsecs := some e.totalMsecs

def storable (e : ApiStat) : Bool :=
  (rtrim e.method).length ≤ 10 ∧ -32768 ≤ e.httpStatusCode ∧ e.httpStatusCode ≤ 32767

def insertStats (rows : List StatsRow) : Option (List StatsRow) :=
  let new := newStats xml p templates rows
  if new.all storable then some (rows ++ new.map (statsRow p templates)) else none

end Model

/-- The tables afterwards, and whether no statement has failed. A statement after one that failed is
executed all the same. -/
def spStatsUpdate (pick : ℕ → ℕ) (ipAddrToInt : Text → Option ℤ) (xml : ApiStats) (db : StatsDb) :
    StatsDb × Bool :=
  let p := place ipAddrToInt xml
  let inserted := insertTemplates xml db
  let templates := inserted.getD db.templates
  let updated := updateStats xml p templates pick db.stats
  let rows := updated.getD db.stats
  let stored := insertStats xml p templates rows
  ({ templates := templates, stats := stored.getD rows },
    inserted.isSome && updated.isSome && stored.isSome)

inductive Column where
  | hits
  | totalMsecs

namespace Column

def ofRow : Column → StatsRow → Option ℤ
  | hits => (·.hits)
  | totalMsecs => (·.totalMsecs)

def ofStat : Column → ApiStat → ℤ
  | hits => (·.hits)
  | totalMsecs => (·.totalMsecs)

end Column

def StatsRow.isAt (p : Place) (k : Triple) (r : StatsRow) : Bool :=
  r.apiTemplateID = some k.1 && r.logPeriod = some p.logPeriod && r.clientIP = p.clientIP &&
    r.method.map collate = some k.2.1 && r.httpStatusCode = some k.2.2

def total (c : Column) (p : Place) (k : Triple) (rows : List StatsRow) : ℤ :=
  ((rows.filter (·.isAt p k)).map fun r => (c.ofRow r).getD 0).sum

def sameTriple (e e' : ApiStat) : Bool :=
  textEq e.template e'.template && textEq e.method e'.method &&
    e.httpStatusCode = e'.httpStatusCode

/-- The totals of each triple have grown by what its entries report, and nothing else is changed. -/
structure Conserved (p : Place) (xml : ApiStats) (before after : StatsDb) : Prop where
  totals : ∀ (c : Column), ∀ e ∈ xml.stats,
    total c p (triple after.templates e) after.stats =
      total c p (triple after.templates e) before.stats +
        ((xml.stats.filter (sameTriple e)).map c.ofStat).sum
  others :
    let elsewhere := fun r : StatsRow =>
      !xml.stats.any fun e => r.isAt p (triple after.templates e)
    after.stats.filter elsewhere = before.stats.filter elsewhere

section Joins

variable {p : Place} {templates : List TemplateRow} {r : StatsRow} {e : ApiStat}

theorem isAt_iff {k : Triple} : r.isAt p k = true ↔ r.apiTemplateID = some k.1 ∧
    r.logPeriod = some p.logPeriod ∧ r.clientIP = p.clientIP ∧
    r.method.map collate = some k.2.1 ∧ r.httpStatusCode = some k.2.2 := by
  simp only [StatsRow.isAt, Bool.and_eq_true, decide_eq_true_eq, and_assoc]

theorem joins_eq :
    joins p templates r e = (p.clientIP.isSome && r.isAt p (triple templates e)) := by
  rw [Bool.eq_iff_iff, Bool.and_eq_true, isAt_iff]
  simp only [joins, triple, Bool.and_eq_true, eqNull_iff, Option.some.injEq, exists_eq_right',
    Option.isSome_iff_exists]
  constructor
  · rintro ⟨⟨⟨⟨h1, h2⟩, h3⟩, h4⟩, i, h5, h6⟩
    exact ⟨⟨i, h6⟩, h1, h2, h5.trans h6.symm, h3, h4⟩
  · rintro ⟨⟨i, h6⟩, h1, h2, h5, h3, h4⟩
    exact ⟨⟨⟨⟨h1, h2⟩, h3⟩, h4⟩, i, h5.trans h6, h6⟩

@[simp] theorem isAt_add (k : Triple) : (add r e).isAt p k = r.isAt p k := rfl

theorem eq_of_isAt {k k' : Triple} (h : r.isAt p k = true) (h' : r.isAt p k' = true) : k = k' := by
  obtain ⟨h1, -, -, h2, h3⟩ := isAt_iff.1 h
  obtain ⟨h1', -, -, h2', h3'⟩ := isAt_iff.1 h'
  rw [h1, Option.some.injEq] at h1'
  rw [h2, Option.some.injEq] at h2'
  rw [h3, Option.some.injEq] at h3'
  exact Prod.ext h1' (Prod.ext h2' h3')

theorem isAt_statsRow (h : storable e = true) (k : Triple) :
    (statsRow p templates e).isAt p k = true ↔ triple templates e = k := by
  simp only [storable, decide_eq_true_eq] at h
  have hmethod := textEq_iff.1 ((textEq_varchar 10 e.method).2 h.1)
  rw [isAt_iff]
  simp only [statsRow, Option.map_some, Option.some.injEq, hmethod, triple, Prod.ext_iff, true_and]

theorem ofRow_add (c : Column) : c.ofRow (add r e) = (c.ofRow r).map (· + c.ofStat e) := by
  cases c <;> rfl

theorem ofRow_statsRow (c : Column) : c.ofRow (statsRow p templates e) = some (c.ofStat e) := by
  cases c <;> rfl

end Joins

section Templates

variable {xml : ApiStats} {db : StatsDb} {e e' : ApiStat}

structure TemplatesFit (xml : ApiStats) (db : StatsDb) : Prop where
  length : ∀ e ∈ xml.stats, (∀ r ∈ db.templates, textEq r.template e.template = false) →
    (rtrim e.template).length ≤ 512
  ids : maxFrom 0 (db.templates.map (·.id)) + (newTemplates xml db).length ≤ 32767

theorem mem_newTemplates {t : Text} (h : t ∈ newTemplates xml db) :
    ∃ e ∈ xml.stats, e.template = t ∧ ∀ r ∈ db.templates, textEq r.template t = false := by
  have hmem := mem_of_mem_distinctOn h
  simp only [mem_filter, mem_map, Bool.not_eq_true', any_eq_false, Bool.not_eq_true] at hmem
  obtain ⟨⟨e, he, rfl⟩, hnew⟩ := hmem
  exact ⟨e, he, rfl, hnew⟩

theorem exists_newTemplate (he : e ∈ xml.stats)
    (hnew : ∀ r ∈ db.templates, textEq r.template e.template = false) :
    ∃ t ∈ newTemplates xml db, collate t = collate e.template := by
  refine exists_mem_distinctOn (mem_filter.2 ⟨mem_map_of_mem he, ?_⟩)
  simpa using hnew

theorem insertTemplates_isSome : (insertTemplates xml db).isSome = true ↔ TemplatesFit xml db := by
  have hall : (newTemplates xml db).all (fun t => (rtrim t).length ≤ 512) = true ↔
      ∀ e ∈ xml.stats, (∀ r ∈ db.templates, textEq r.template e.template = false) →
        (rtrim e.template).length ≤ 512 := by
    simp only [all_eq_true, decide_eq_true_eq]
    constructor
    · intro h e he hnew
      obtain ⟨t, ht, hk⟩ := exists_newTemplate he hnew
      have hlen := congrArg List.length hk
      simp only [collate, length_map] at hlen
      exact hlen ▸ h t ht
    · intro h t ht
      obtain ⟨e, he, rfl, hnew⟩ := mem_newTemplates ht
      exact h e he hnew
  unfold insertTemplates
  split_ifs with h
  · exact iff_of_true rfl ⟨hall.1 h.1, h.2⟩
  · refine iff_of_false (by simp) fun hfit => h ⟨hall.2 hfit.length, hfit.ids⟩

theorem insertTemplates_eq (h : TemplatesFit xml db) :
    insertTemplates xml db = some (withTemplates xml db) := by
  obtain ⟨templates, ht⟩ := Option.isSome_iff_exists.1 (insertTemplates_isSome.2 h)
  have heq := ht
  unfold insertTemplates at heq
  split_ifs at heq
  rw [ht, ← heq]

theorem unique_withTemplates (hkeys : db.Keys) :
    Sql.Unique (fun t : TemplateRow => t.id) (withTemplates xml db) := by
  refine hkeys.ids.append (unique_identity (fun _ _ => rfl) _ _) fun r hr r' hr' => ?_
  obtain ⟨t, -, i, hle, rfl⟩ := mem_identity hr'
  have hmax : r.id ≤ maxFrom 0 (db.templates.map (·.id)) := le_maxFrom (mem_map_of_mem hr)
  show r.id ≠ i
  omega

theorem exists_template (hfit : TemplatesFit xml db) (he : e ∈ xml.stats) :
    ∃ r ∈ withTemplates xml db, textEq r.template e.template = true := by
  by_cases hnew : ∀ r ∈ db.templates, textEq r.template e.template = false
  · obtain ⟨t, ht, hk⟩ := exists_newTemplate he hnew
    have hrows : ((identity (fun t i => (⟨i, varchar 512 t⟩ : TemplateRow))
        (1 + maxFrom 0 (db.templates.map (·.id))) (newTemplates xml db)).map (·.template)) =
          (newTemplates xml db).map (varchar 512) :=
      map_identity (f := TemplateRow.template) (g := varchar 512)
        fun t i => (rfl : TemplateRow.template ⟨i, varchar 512 t⟩ = varchar 512 t)
    have hmem := mem_map_of_mem (f := varchar 512) ht
    rw [← hrows] at hmem
    obtain ⟨r, hr, hrt⟩ := mem_map.1 hmem
    refine ⟨r, mem_append_right _ hr, ?_⟩
    obtain ⟨e', he', rfl, hnew'⟩ := mem_newTemplates ht
    have hcut := (textEq_varchar 512 e'.template).2 (hfit.length e' he' hnew')
    rw [hrt, textEq_iff, ← hk]
    exact textEq_iff.1 hcut
  · push Not at hnew
    obtain ⟨r, hr, hrt⟩ := hnew
    exact ⟨r, mem_append_left _ hr, by simpa using hrt⟩

theorem templateID_congr (templates : List TemplateRow) {t t' : Text}
    (h : collate t = collate t') : templateID templates t = templateID templates t' := by
  unfold templateID textEq
  rw [h]

theorem triple_eq_iff (hkeys : db.Keys) (hfit : TemplatesFit xml db) (he : e ∈ xml.stats)
    (he' : e' ∈ xml.stats) :
    triple (withTemplates xml db) e' = triple (withTemplates xml db) e ↔
      sameTriple e e' = true := by
  have hid : templateID (withTemplates xml db) e'.template = templateID (withTemplates xml db)
      e.template ↔ collate e.template = collate e'.template := by
    refine ⟨fun h => ?_, fun h => (templateID_congr _ h).symm⟩
    have hfind : ∀ {d : ApiStat}, d ∈ xml.stats → ∃ r ∈ withTemplates xml db,
        textEq r.template d.template = true ∧
          templateID (withTemplates xml db) d.template = r.id := by
      intro d hd
      obtain ⟨r, hr, hrt⟩ := exists_template hfit hd
      have hsome : ((withTemplates xml db).find? fun r =>
          textEq r.template d.template).isSome = true := find?_isSome.2 ⟨r, hr, hrt⟩
      obtain ⟨r', hr'⟩ := Option.isSome_iff_exists.1 hsome
      have hrt' := find?_some hr'
      refine ⟨r', mem_of_find?_eq_some hr', hrt', ?_⟩
      rw [templateID, hr']
      rfl
    obtain ⟨r, hr, hrt, hri⟩ := hfind he
    obtain ⟨r', hr', hrt', hri'⟩ := hfind he'
    obtain rfl := (unique_withTemplates hkeys).eq hr' hr (by rw [← hri, ← hri', h])
    exact (textEq_iff.1 hrt).symm.trans (textEq_iff.1 hrt')
  rw [triple, triple, Prod.mk.injEq, Prod.mk.injEq, hid, sameTriple, Bool.and_eq_true,
    Bool.and_eq_true, textEq_iff, textEq_iff, decide_eq_true_eq, and_assoc,
    eq_comm (a := collate e'.method), eq_comm (a := e'.httpStatusCode)]

theorem filter_sameTriple (hkeys : db.Keys) (hfit : TemplatesFit xml db) (he : e ∈ xml.stats) :
    xml.stats.filter (sameTriple e) = xml.stats.filter fun e' =>
      triple (withTemplates xml db) e' = triple (withTemplates xml db) e := by
  refine filter_congr fun e' he' => ?_
  rw [Bool.eq_iff_iff, decide_eq_true_eq, triple_eq_iff hkeys hfit he he']

end Templates

section Totals

variable {c : Column} {p : Place} {k : Triple} {templates : List TemplateRow} {xml : ApiStats}

def numbers (c : Column) (p : Place) (k : Triple) (rows : List StatsRow) : List StatsRow :=
  rows.filter fun r => r.isAt p k && (c.ofRow r).isSome

theorem total_add {v : ℤ} {rows rows' : List StatsRow}
    (h : List.Forall₂ (fun r r' => r'.isAt p k = r.isAt p k ∧ (r.isAt p k = true →
      ∃ e, r' = add r e ∧ ((c.ofRow r).isSome = true → c.ofStat e = v))) rows rows') :
    total c p k rows' = total c p k rows + (numbers c p k rows).length * v := by
  unfold total numbers
  induction h with
  | nil => simp
  | @cons r r' rows rows' hr _ ih =>
    obtain ⟨hat, hadd⟩ := hr
    rw [filter_cons, filter_cons, filter_cons, hat]
    by_cases hk : r.isAt p k = true
    · obtain ⟨e, rfl, he⟩ := hadd hk
      rw [if_pos hk, if_pos hk, map_cons, map_cons, sum_cons, sum_cons, ih,
        ofRow_add, hk, Bool.true_and]
      rcases hn : c.ofRow r with _ | n
      · simp
      · rw [he (by rw [hn]; rfl)]
        simp only [Option.isSome_some, if_true, Option.map_some, Option.getD_some,
          length_cons, Nat.cast_add, Nat.cast_one]
        ring
    · rw [if_neg hk, if_neg hk, ih, Bool.not_eq_true] at *
      simp [hk]

theorem total_append (rows rows' : List StatsRow) :
    total c p k (rows ++ rows') = total c p k rows + total c p k rows' := by
  simp [total]

theorem total_statsRow {new : List ApiStat} (h : ∀ e ∈ new, storable e = true) :
    total c p k (new.map (statsRow p templates)) =
      ((new.filter fun e => triple templates e = k).map c.ofStat).sum := by
  unfold total
  rw [filter_map, map_map]
  have hfilter : new.filter ((·.isAt p k) ∘ statsRow p templates) =
      new.filter fun e => triple templates e = k := by
    refine filter_congr fun e he => ?_
    rw [Bool.eq_iff_iff, Function.comp_apply, isAt_statsRow (h e he), decide_eq_true_eq]
  rw [hfilter]
  refine congrArg List.sum (map_congr_left fun e _ => ?_)
  simp [ofRow_statsRow]

theorem filter_newStats (rows : List StatsRow) :
    (newStats xml p templates rows).filter (fun e => triple templates e = k) =
      if p.clientIP.isSome && rows.any (·.isAt p k) then []
      else distinctOn (fun e => (e.hits, e.totalMsecs))
        (xml.stats.filter fun e => triple templates e = k) := by
  unfold newStats
  rw [filter_distinctOn fun a b h => by rw [show triple templates a = _ from congrArg Prod.fst h],
    filter_filter]
  have hjoin : ∀ e, triple templates e = k → (rows.any fun r => joins p templates r e) =
      (p.clientIP.isSome && rows.any (·.isAt p k)) := by
    rintro e rfl
    simp only [joins_eq]
    cases p.clientIP.isSome <;> simp
  have hfilter : (xml.stats.filter fun e => decide (triple templates e = k) &&
      !rows.any fun r => joins p templates r e) =
        if p.clientIP.isSome && rows.any (·.isAt p k) then []
        else xml.stats.filter fun e => triple templates e = k := by
    split_ifs with hany
    · refine filter_eq_nil_iff.2 fun e _ => ?_
      by_cases hk : triple templates e = k
      · simp [hjoin e hk, hany]
      · simp [hk]
    · refine filter_congr fun e _ => ?_
      by_cases hk : triple templates e = k
      · simp [hjoin e hk, hany]
      · simp [hk]
  rw [hfilter]
  split_ifs
  · rfl
  · refine distinctOn_congr fun a ha b hb => ?_
    have hka : triple templates a = k := by simpa using (mem_filter.1 ha).2
    have hkb : triple templates b = k := by simpa using (mem_filter.1 hb).2
    simp [hka, hkb]

end Totals

section Update

variable {c : Column} {p : Place} {k : Triple} {templates : List TemplateRow} {xml : ApiStats}
  {rows rows' : List StatsRow}

theorem isAt_updates {r r' : StatsRow} (h : Updates (joins p templates) add xml.stats r r')
    (k : Triple) : r'.isAt p k = r.isAt p k := by
  rcases h with ⟨e, -, -, rfl⟩ | ⟨-, rfl⟩
  · rfl
  · rfl

theorem any_isAt_updates
    (h : List.Forall₂ (Updates (joins p templates) add xml.stats) rows rows') (k : Triple) :
    rows'.any (·.isAt p k) = rows.any (·.isAt p k) := by
  induction h with
  | nil => rfl
  | cons hr _ ih => rw [any_cons, any_cons, isAt_updates hr, ih]

theorem total_stored {new : List ApiStat} (hnew : new = newStats xml p templates rows')
    (hstorable : ∀ e ∈ new, storable e = true)
    (h : List.Forall₂ (Updates (joins p templates) add xml.stats) rows rows') :
    total c p k (rows' ++ new.map (statsRow p templates)) = total c p k rows' +
      if p.clientIP.isSome && rows.any (·.isAt p k) then 0
      else ((distinctOn (fun e => (e.hits, e.totalMsecs))
        (xml.stats.filter fun e => triple templates e = k)).map c.ofStat).sum := by
  rw [total_append, total_statsRow hstorable, hnew, filter_newStats, any_isAt_updates h]
  split_ifs <;> rfl

theorem found_iff {e : ApiStat} : (∃ r ∈ rows, joins p templates r e = true) ↔
    (p.clientIP.isSome && rows.any (·.isAt p (triple templates e))) = true := by
  simp only [joins_eq, Bool.and_eq_true, any_eq_true]
  tauto

end Update

section Main

variable (p : Place) (xml : ApiStats) (db : StatsDb)

/-- The entries that name the triple of `e` report the same number, and it is 0 or there are as many
rows with a number as entries. Or no row has a number, and the entries sum up to 0. -/
def Steady (c : Column) (e : ApiStat) : Prop :=
  let same := xml.stats.filter (sameTriple e)
  let rows := numbers c p (triple (withTemplates xml db) e) db.stats
  (rows = [] ∧ (same.map c.ofStat).sum = 0) ∨
    ((∀ e' ∈ same, c.ofStat e' = c.ofStat e) ∧ (c.ofStat e = 0 ∨ rows.length = same.length))

/-- New templates and rows have their places and no sum overflows. The entries of a triple that has
rows are steady. Of a triple that has none, the sums are those without repeated entries. -/
structure Countable : Prop where
  templates : TemplatesFit xml db
  range : ∀ e ∈ xml.stats, ∀ r ∈ db.stats, joins p (withTemplates xml db) r e = true →
    inRange (add r e) = true
  found : ∀ e ∈ xml.stats, (∃ r ∈ db.stats, joins p (withTemplates xml db) r e = true) →
    ∀ c, Steady p xml db c e
  fresh : ∀ e ∈ xml.stats, (¬∃ r ∈ db.stats, joins p (withTemplates xml db) r e = true) →
    storable e = true ∧ ∀ c : Column,
      ((distinctOn (fun e => (e.hits, e.totalMsecs)) (xml.stats.filter (sameTriple e))).map
        c.ofStat).sum = ((xml.stats.filter (sameTriple e)).map c.ofStat).sum

def updated (pick : ℕ → ℕ) : List StatsRow :=
  updateFrom pick (joins p (withTemplates xml db)) add xml.stats db.stats

variable {p xml db} {templates : List TemplateRow} {pick : ℕ → ℕ} {e : ApiStat}
  {rows rows' : List StatsRow} {c : Column}

structure Succeeds (p : Place) (xml : ApiStats) (db : StatsDb) (pick : ℕ → ℕ) : Prop where
  templates : TemplatesFit xml db
  range : ∀ r ∈ updated p xml db pick, (∃ e ∈ xml.stats, joins p (withTemplates xml db) r e = true)
    →
    inRange r = true
  storable : ∀ e ∈ newStats xml p (withTemplates xml db) (updated p xml db pick), storable e = true

theorem updateStats_eq_some : updateStats xml p templates pick rows = some rows' ↔
      updateFrom pick (joins p templates) add xml.stats rows = rows' ∧
        ∀ r ∈ rows', (∃ e ∈ xml.stats, joins p templates r e = true) → inRange r = true := by
  have hall : ∀ l : List StatsRow,
      (l.all fun r => !xml.stats.any (joins p templates r) || inRange r) = true ↔
        ∀ r ∈ l, (∃ e ∈ xml.stats, joins p templates r e = true) → inRange r = true := by
    intro l
    simp only [all_eq_true, Bool.or_eq_true, Bool.not_eq_true', or_iff_not_imp_left,
      Bool.not_eq_false, any_eq_true]
  simp only [updateStats, Option.ite_none_right_eq_some, hall, Option.some.injEq]
  constructor
  · rintro ⟨h, rfl⟩
    exact ⟨rfl, h⟩
  · rintro ⟨rfl, h⟩
    exact ⟨h, rfl⟩

theorem insertStats_eq_some : insertStats xml p templates rows = some rows' ↔
      (∀ e ∈ newStats xml p templates rows, storable e = true) ∧
        rows ++ (newStats xml p templates rows).map (statsRow p templates) = rows' := by
  simp only [insertStats, Option.ite_none_right_eq_some, all_eq_true, Option.some.injEq]

theorem spStatsUpdate_of_succeeds {ipAddrToInt : Text → Option ℤ}
    (h : Succeeds (place ipAddrToInt xml) xml db pick) : spStatsUpdate pick ipAddrToInt xml db =
      (⟨withTemplates xml db, updated (place ipAddrToInt xml) xml db pick ++
        (newStats xml (place ipAddrToInt xml) (withTemplates xml db)
          (updated (place ipAddrToInt xml) xml db pick)).map
            (statsRow (place ipAddrToInt xml) (withTemplates xml db))⟩, true) := by
  have hupdate : updateStats xml (place ipAddrToInt xml) (withTemplates xml db) pick db.stats =
      some (updated (place ipAddrToInt xml) xml db pick) := updateStats_eq_some.2 ⟨rfl, h.range⟩
  have hinsert := insertStats_eq_some.2 ⟨h.storable, rfl⟩
  simp only [spStatsUpdate, insertTemplates_eq h.templates, Option.getD_some, hupdate, hinsert,
    Option.isSome_some, Bool.and_self]

theorem succeeds_of_ok {ipAddrToInt : Text → Option ℤ}
    (h : (spStatsUpdate pick ipAddrToInt xml db).2 = true) :
    Succeeds (place ipAddrToInt xml) xml db pick := by
  simp only [spStatsUpdate, Bool.and_eq_true] at h
  obtain ⟨⟨htemplates, hupdate⟩, hinsert⟩ := h
  have hfit := insertTemplates_isSome.1 htemplates
  rw [insertTemplates_eq hfit, Option.getD_some] at hupdate hinsert
  obtain ⟨rows, hrows⟩ := Option.isSome_iff_exists.1 hupdate
  rw [hrows, Option.getD_some] at hinsert
  obtain ⟨hupdated, hrange⟩ := updateStats_eq_some.1 hrows
  obtain ⟨rows', hrows'⟩ := Option.isSome_iff_exists.1 hinsert
  subst hupdated
  exact ⟨hfit, hrange, (insertStats_eq_some.1 hrows').1⟩

theorem updates_updated :
    List.Forall₂ (Updates (joins p (withTemplates xml db)) add xml.stats) db.stats
      (updated p xml db pick) := updates_updateFrom

theorem exists_pick_entry (he : e ∈ xml.stats) :
    ∃ pick f, updated p xml db pick = db.stats.map f ∧ ∀ r,
      (joins p (withTemplates xml db) r e = true → f r = add r e) ∧
        Updates (joins p (withTemplates xml db)) add xml.stats r (f r) :=
  exists_pick_row (joins p (withTemplates xml db)) add db.stats he

theorem joins_iff_of_isAt {r : StatsRow} {e e' : ApiStat} (h : joins p templates r e = true) :
    joins p templates r e' = true ↔ triple templates e' = triple templates e := by
  rw [joins_eq, Bool.and_eq_true] at h ⊢
  constructor
  · exact fun h' => eq_of_isAt h'.2 h.2
  · exact fun he => he ▸ h

theorem found_updated (h : List.Forall₂ (Updates (joins p templates) add xml.stats) rows rows') :
    (∃ r ∈ rows', joins p templates r e = true) ↔ ∃ r ∈ rows, joins p templates r e = true := by
  rw [found_iff, found_iff, any_isAt_updates h]

theorem succeeds_of_countable (h : Countable p xml db) (pick : ℕ → ℕ) : Succeeds p xml db pick := by
  refine ⟨h.templates, fun r' hr' hex => ?_, fun e he => ?_⟩
  · obtain ⟨e, he, hjoin⟩ := hex
    obtain ⟨r, hr, hupdates⟩ := exists_of_forall₂ updates_updated hr'
    rcases hupdates with ⟨s, hs, hjoins, rfl⟩ | ⟨hnone, rfl⟩
    · exact h.range s hs r hr hjoins
    · rw [hnone e he] at hjoin
      cases hjoin
  · have hmem := mem_of_mem_distinctOn he
    simp only [mem_filter, Bool.not_eq_true', any_eq_false, Bool.not_eq_true] at hmem
    refine (h.fresh e hmem.1 fun hex => ?_).1
    obtain ⟨r, hr, hjoin⟩ := (found_updated updates_updated).2 hex
    rw [hmem.2 r hr] at hjoin
    cases hjoin

theorem total_updated {v : ℤ} (hfound : ∃ r ∈ db.stats, joins p (withTemplates xml db) r e = true)
    (h : List.Forall₂ (fun r r' => joins p (withTemplates xml db) r e = true →
      ∃ s, r' = add r s ∧ ((c.ofRow r).isSome = true → c.ofStat s = v)) db.stats
        (updated p xml db pick)) :
    total c p (triple (withTemplates xml db) e) (updated p xml db pick) =
      total c p (triple (withTemplates xml db) e) db.stats +
        (numbers c p (triple (withTemplates xml db) e) db.stats).length * v := by
  refine total_add (h.mp (fun r r' hadd hupdates => ⟨isAt_updates hupdates _, fun hat => ?_⟩)
    updates_updated)
  refine hadd ?_
  rw [found_iff, Bool.and_eq_true] at hfound
  rw [joins_eq, hfound.1, hat, Bool.and_self]

theorem exists_entry {r r' : StatsRow}
    (h : Updates (joins p templates) add xml.stats r r') (he : e ∈ xml.stats)
    (hjoin : joins p templates r e = true) :
    ∃ s ∈ xml.stats, r' = add r s ∧ triple templates s = triple templates e := by
  rcases h with ⟨s, hs, hjoins, rfl⟩ | ⟨hnone, -⟩
  · exact ⟨s, hs, rfl, (joins_iff_of_isAt hjoin).1 hjoins⟩
  · rw [hnone e he] at hjoin
    cases hjoin

theorem sum_of_forall_eq {l : List ApiStat} {v : ℤ} (h : ∀ e ∈ l, c.ofStat e = v) :
    (l.map c.ofStat).sum = l.length * v := by
  have hconst : ∀ x ∈ l.map c.ofStat, x = v := by
    intro x hx
    obtain ⟨e, he, rfl⟩ := mem_map.1 hx
    exact h e he
  rw [sum_eq_card_nsmul _ v hconst, length_map, nsmul_eq_mul]

theorem total_of_not_found (hfound : ¬∃ r ∈ db.stats, joins p (withTemplates xml db) r e = true) :
    total c p (triple (withTemplates xml db) e) (updated p xml db pick) =
      total c p (triple (withTemplates xml db) e) db.stats := by
  have hrows : (updated p xml db pick).filter (·.isAt p (triple (withTemplates xml db) e)) =
      db.stats.filter (·.isAt p (triple (withTemplates xml db) e)) := by
    refine filter_updates updates_updated fun r hr d _ hjoin => ?_
    have hat : r.isAt p (triple (withTemplates xml db) e) = false := by
      by_contra hat
      rw [Bool.not_eq_false] at hat
      rw [joins_eq, Bool.and_eq_true] at hjoin
      exact hfound ⟨r, hr, by rw [joins_eq, hjoin.1, hat, Bool.and_self]⟩
    exact ⟨hat, hat⟩
  rw [total, total, hrows]

theorem totals_of_countable (hkeys : db.Keys) (h : Countable p xml db) (pick : ℕ → ℕ) (c : Column)
    (he : e ∈ xml.stats) :
    total c p (triple (withTemplates xml db) e) (updated p xml db pick ++
      (newStats xml p (withTemplates xml db) (updated p xml db pick)).map
        (statsRow p (withTemplates xml db))) =
      total c p (triple (withTemplates xml db) e) db.stats +
        ((xml.stats.filter (sameTriple e)).map c.ofStat).sum := by
  rw [total_stored rfl (succeeds_of_countable h pick).storable updates_updated]
  by_cases hfound : ∃ r ∈ db.stats, joins p (withTemplates xml db) r e = true
  · rw [if_pos (found_iff.1 hfound), add_zero]
    have hmem := (List.forall₂_and_left db.stats (updated p xml db pick)).2
      ⟨fun r hr => hr, updates_updated⟩
    rcases h.found e he hfound c with ⟨hnil, hsum⟩ | ⟨hsame, hzero⟩
    · rw [total_updated (v := 0) hfound (hmem.imp fun r r' hr hjoin => ?_), hsum, mul_zero]
      obtain ⟨s, hs, rfl, -⟩ := exists_entry hr.2 he hjoin
      refine ⟨s, rfl, fun hsome => ?_⟩
      rw [joins_eq, Bool.and_eq_true] at hjoin
      have hin : r ∈ numbers c p (triple (withTemplates xml db) e) db.stats :=
        mem_filter.2 ⟨hr.1, by rw [hjoin.2, hsome, Bool.and_self]⟩
      rw [hnil] at hin
      cases hin
    · rw [total_updated (v := c.ofStat e) hfound (hmem.imp fun r r' hr hjoin => ?_),
        sum_of_forall_eq hsame]
      · rcases hzero with hzero | hlen
        · rw [hzero, mul_zero, mul_zero]
        · rw [hlen]
      · obtain ⟨s, hs, rfl, htriple⟩ := exists_entry hr.2 he hjoin
        refine ⟨s, rfl, fun _ => hsame s (mem_filter.2 ⟨hs, ?_⟩)⟩
        exact (triple_eq_iff hkeys h.templates he hs).1 htriple
  · rw [if_neg fun hc => hfound (found_iff.2 hc), total_of_not_found hfound,
      ← filter_sameTriple hkeys h.templates he, (h.fresh e he hfound).2 c]

theorem others_of_succeeds (h : Succeeds p xml db pick) :
    (updated p xml db pick ++ (newStats xml p (withTemplates xml db) (updated p xml db pick)).map
      (statsRow p (withTemplates xml db))).filter
        (fun r => !xml.stats.any fun e => r.isAt p (triple (withTemplates xml db) e)) =
      db.stats.filter
        fun r => !xml.stats.any fun e => r.isAt p (triple (withTemplates xml db) e) := by
  have hnew : ((newStats xml p (withTemplates xml db) (updated p xml db pick)).map
      (statsRow p (withTemplates xml db))).filter
        (fun r => !xml.stats.any fun e => r.isAt p (triple (withTemplates xml db) e)) = [] := by
    refine filter_eq_nil_iff.2 fun r hr => ?_
    obtain ⟨e, he, rfl⟩ := mem_map.1 hr
    have hmem := (mem_filter.1 (mem_of_mem_distinctOn he)).1
    have hat := (isAt_statsRow (h.storable e he) (p := p) (triple (withTemplates xml db) e)).2 rfl
    rw [Bool.not_eq_true', Bool.not_eq_false]
    exact any_eq_true.2 ⟨e, hmem, hat⟩
  rw [filter_append, hnew, append_nil]
  refine filter_updates updates_updated fun r _ e he hjoin => ?_
  rw [joins_eq, Bool.and_eq_true] at hjoin
  have hany : (xml.stats.any fun e => r.isAt p (triple (withTemplates xml db) e)) = true :=
    any_eq_true.2 ⟨e, he, hjoin.2⟩
  exact ⟨by rw [hany]; rfl, by simp only [isAt_add, hany]; rfl⟩

theorem storable_of_new {rows : List StatsRow}
    (h : ∀ d ∈ newStats xml p templates rows, storable d = true) (he : e ∈ xml.stats)
    (hfound : ¬∃ r ∈ rows, joins p templates r e = true) : storable e = true := by
  have hnew : e ∈ xml.stats.filter fun e => !rows.any fun r => joins p templates r e := by
    refine mem_filter.2 ⟨he, ?_⟩
    rw [Bool.not_eq_true', any_eq_false]
    exact fun r hr hjoin => hfound ⟨r, hr, hjoin⟩
  obtain ⟨d, hd, hk⟩ : ∃ d ∈ newStats xml p templates rows,
      (triple templates d, d.hits, d.totalMsecs) = (triple templates e, e.hits, e.totalMsecs) :=
    exists_mem_distinctOn hnew
  have hd := h d hd
  simp only [triple, Prod.mk.injEq] at hk
  obtain ⟨⟨-, hmethod, hcode⟩, -⟩ := hk
  have hlen := congrArg List.length hmethod
  simp only [collate, length_map] at hlen
  simp only [storable, decide_eq_true_eq] at hd ⊢
  rwa [hlen, hcode] at hd

theorem steady_of_totals (hkeys : db.Keys) (hfit : TemplatesFit xml db)
    (he : e ∈ xml.stats) (hfound : ∃ r ∈ db.stats, joins p (withTemplates xml db) r e = true)
    (h : ∀ pick, total c p (triple (withTemplates xml db) e) (updated p xml db pick) =
      total c p (triple (withTemplates xml db) e) db.stats +
        ((xml.stats.filter (sameTriple e)).map c.ofStat).sum) : Steady p xml db c e := by
  -- whichever entry of the triple the server takes for all its rows
  have hall : ∀ e' ∈ xml.stats.filter (sameTriple e),
      (numbers c p (triple (withTemplates xml db) e) db.stats).length * c.ofStat e' =
        ((xml.stats.filter (sameTriple e)).map c.ofStat).sum := by
    intro e' he'
    obtain ⟨hmem, hsame⟩ := mem_filter.1 he'
    have htriple := (triple_eq_iff hkeys hfit he hmem).2 hsame
    obtain ⟨pick, f, hpick, hf⟩ := exists_pick_entry (p := p) hmem
    have htotal := h pick
    rw [total_updated (v := c.ofStat e') hfound] at htotal
    · omega
    · rw [hpick, List.forall₂_map_right_iff, List.forall₂_same]
      intro r _ hjoin
      refine ⟨e', (hf r).1 ((joins_iff_of_isAt hjoin).2 htriple), fun _ => rfl⟩
  have hself : sameTriple e e = true := (triple_eq_iff hkeys hfit he he).1 rfl
  have hsum := hall e (mem_filter.2 ⟨he, hself⟩)
  rcases hrows : numbers c p (triple (withTemplates xml db) e) db.stats with _ | ⟨r, rows⟩
  · refine .inl ⟨hrows, ?_⟩
    rw [hrows, length_nil, Nat.cast_zero, zero_mul] at hsum
    exact hsum.symm
  · have hne : ((numbers c p (triple (withTemplates xml db) e) db.stats).length : ℤ) ≠ 0 := by
      rw [hrows, length_cons]
      omega
    have heq : ∀ e' ∈ xml.stats.filter (sameTriple e), c.ofStat e' = c.ofStat e := fun e' he' =>
      mul_left_cancel₀ hne ((hall e' he').trans hsum.symm)
    refine .inr ⟨heq, ?_⟩
    rw [sum_of_forall_eq heq, mul_eq_mul_right_iff] at hsum
    rcases hsum with hlen | hzero
    · exact .inr (by exact_mod_cast hlen)
    · exact .inl hzero

/-- The totals grow by what is reported, whichever joined rows the server uses, exactly if the
entries are countable. -/
theorem stats_conserved_iff (hkeys : db.Keys) (ipAddrToInt : Text → Option ℤ) :
    (∀ pick, (spStatsUpdate pick ipAddrToInt xml db).2 = true ∧
      Conserved (place ipAddrToInt xml) xml db (spStatsUpdate pick ipAddrToInt xml db).1) ↔
      Countable (place ipAddrToInt xml) xml db := by
  constructor
  · intro h
    have hsucceeds := fun pick => succeeds_of_ok (h pick).1
    have hfit := (hsucceeds 0).templates
    have hconserved : ∀ pick, Conserved (place ipAddrToInt xml) xml db _ := fun pick => by
      have hpick := (h pick).2
      rw [spStatsUpdate_of_succeeds (hsucceeds pick)] at hpick
      exact hpick
    refine ⟨hfit, fun e he r hr hjoin => ?_, fun e he hfound c => ?_, fun e he hfound => ?_⟩
    · obtain ⟨pick, f, hpick, hf⟩ := exists_pick_entry he
      refine (hsucceeds pick).range (add r e) ?_ ⟨e, he, ?_⟩
      · rw [hpick, ← (hf r).1 hjoin]
        exact mem_map_of_mem hr
      · rw [joins_eq] at hjoin ⊢
        exact hjoin
    · refine steady_of_totals hkeys hfit he hfound fun pick => ?_
      have htotal := (hconserved pick).totals c e he
      rwa [total_stored rfl (hsucceeds pick).storable updates_updated,
        if_pos (found_iff.1 hfound), add_zero] at htotal
    · refine ⟨?_, fun c => ?_⟩
      · refine storable_of_new (hsucceeds 0).storable he fun hex => hfound ?_
        exact (found_updated updates_updated).1 hex
      · have htotal := (hconserved 0).totals c e he
        rw [total_stored rfl (hsucceeds 0).storable updates_updated,
          if_neg fun hc => hfound (found_iff.2 hc), total_of_not_found hfound,
          ← filter_sameTriple hkeys hfit he] at htotal
        exact add_left_cancel htotal
  · intro h pick
    rw [spStatsUpdate_of_succeeds (succeeds_of_countable h pick)]
    exact ⟨rfl, fun c e he => totals_of_countable hkeys h pick c he,
      others_of_succeeds (succeeds_of_countable h pick)⟩

end Main

def hit (n : ℤ) : ApiStat := ⟨"/users".toList, "GET".toList, 200, n, 10⟩

def repeated : ApiStats := ⟨0, [], [hit 1, hit 2]⟩

/-- The triple of `hit` has a row already. -/
def oneRow : StatsDb :=
  ⟨[⟨1, "/users".toList⟩],
    [⟨some 1, some 0, some 7, some "GET".toList, some 200, some 0, some 0⟩]⟩

def once : ApiStats := ⟨0, [], [hit 1]⟩

theorem counted_once : oneRow.Keys ∧ ∀ pick,
    (spStatsUpdate pick (fun _ => some 7) once oneRow).2 = true ∧
      Conserved (place (fun _ => some 7) once) once oneRow
        (spStatsUpdate pick (fun _ => some 7) once oneRow).1 := by
  have hkeys : oneRow.Keys := ⟨by decide, by decide⟩
  refine ⟨hkeys, (stats_conserved_iff hkeys _).2 ⟨⟨?_, by decide⟩, ?_, ?_, ?_⟩⟩
  · intro e he _
    rw [mem_singleton.1 he]
    decide
  · intro e he r hr _
    rw [mem_singleton.1 he, mem_singleton.1 hr]
    decide
  · intro e he _ c
    rw [mem_singleton.1 he]
    refine .inr ⟨fun e' he' => ?_, .inr ?_⟩
    · rw [mem_singleton.1 (mem_of_mem_filter he')]
    · cases c <;> decide
  · intro e he hnone
    rw [mem_singleton.1 he] at hnone
    exact absurd ⟨_, mem_cons_self, by decide⟩ hnone

/-- The second time the triple has a row, and one of the entries is lost. -/
theorem repeated_not_conserved :
    let db : StatsDb := ⟨[⟨1, "/users".toList⟩],
      [⟨some 1, some 0, some 7, some "GET".toList, some 200,
      some 0, some 0⟩]⟩
    db.Keys ∧ ¬∀ pick, (spStatsUpdate pick (fun _ => some 7) repeated db).2 = true ∧
      Conserved (place (fun _ => some 7) repeated) repeated db
        (spStatsUpdate pick (fun _ => some 7) repeated db).1 := by
  intro db
  refine ⟨⟨by decide, by decide⟩, fun h => ?_⟩
  have htotal := (h 0).2.totals .hits (hit 1) (by decide)
  exact absurd htotal (by decide)

end AciX.Stats
