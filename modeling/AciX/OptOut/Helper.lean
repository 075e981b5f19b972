import AciX.Sql.Case
import Mathlib.Data.List.Sort

/-!
# The opt-out helper

`OptOutHelper` looks for links to search results in mails and writes a script that deletes these
results. The text of a link after `records/` is read as `First-Middle-Last-in-State`; what fails
becomes a comment. A command is kept for each key `Last,First,State`. Which keys are equal is left
to the order of texts (`KeyOrder`); the first link with a key is the one that counts
(`mem_entries_iff`).
-/

namespace AciX.OptOut

open List

def isQueryChar (c : Char) : Bool := c ≠ '"' && c ≠ '<' && c ≠ '>' && c ≠ '?' && !isWhiteSpace c

def chop : Text → Text → Option Text
  | [], s => some s
  | _ :: _, [] => none
  | c :: p, d :: s => if c = d then chop p s else none

def linkAt (s : Text) : Option (Text × Text) := do
  let s ← chop "://".toList s
  let s := (chop "www.".toList s).getD s
  let s ← (chop "public".toList s).or (chop "criminal".toList s)
  let s ← chop "records.com/".toList s
  let s := (chop "people-search-".toList s).getD s
  let s ← chop "records/".toList s
  return (s.takeWhile isQueryChar, s.dropWhile isQueryChar)

def linksFrom : ℕ → Text → List Text
  | 0, _ => []
  | _, [] => []
  | n + 1, c :: s =>
    match linkAt (c :: s) with
    | some (query, rest) => query :: linksFrom n rest
    | none => linksFrom n s

def links (body : Text) : List Text := linksFrom body.length body

def removeEscapes : Text → Text
  | '%' :: '2' :: '0' :: s => removeEscapes s
  | c :: s => c :: removeEscapes s
  | [] => []

local instance : LawfulBEq Text := inferInstance

def parseMailItem (dictQueries : List Text) (body : Option Text) : List Text :=
  ((body.elim [] links).map removeEscapes).foldl (fun d q => if q ∈ d then d else d ++ [q])
    dictQueries

def queriesOf (selection : List (Option Text)) : List Text := selection.foldl parseMailItem []

def myDict (entries : List (String × String)) : List (Text × Text) :=
  entries.map fun e => (toLower e.1.toList, toLower e.2.toList)

def stateNameByAbbr : List (Text × Text) := myDict
  [("AK", "Alaska"), ("AL", "Alabama"), ("AR", "Arkansas"), ("AZ", "Arizona"),
    ("CA", "California"), ("CO", "Colorado"), ("CT", "Connecticut"), ("DC", "Washington DC"),
    ("DE", "Delaware"), ("FL", "Florida"), ("GA", "Georgia"), ("HI", "Hawaii"), ("IA", "Iowa"),
    ("ID", "Idaho"), ("IL", "Illinois"), ("IN", "Indiana"), ("KS", "Kansas"), ("KY", "Kentucky"),
    ("LA", "Louisiana"), ("MA", "Massachusetts"), ("MD", "Maryland"), ("ME", "Maine"),
    ("MI", "Michigan"), ("MN", "Minnesota"), ("MO", "Missouri"), ("MS", "Mississippi"),
    ("MT", "Montana"), ("NC", "North Carolina"), ("ND", "North Dakota"), ("NE", "Nebraska"),
    ("NH", "New Hampshire"), ("NJ", "New Jersey"), ("NM", "New Mexico"), ("NV", "Nevada"),
    ("NY", "New York"), ("OH", "Ohio"), ("OK", "Oklahoma"), ("OR", "Oregon"),
    ("PA", "Pennsylvania"), ("RI", "Rhode Island"), ("SC", "South Carolina"),
    ("SD", "South Dakota"), ("TN", "Tennessee"), ("TX", "Texas"), ("UT", "Utah"),
    ("VA", "Virginia"), ("VI", "Virginia"), ("VT", "Vermont"), ("WA", "Washington"),
    ("WI", "Wisconsin"), ("WV", "West Virginia"), ("WY", "Wyoming")]

def stateAbbrByName : List (Text × Text) := myDict
  [("Alaska", "AK"), ("Alabama", "AL"), ("Arkansas", "AR"), ("Arizona", "AZ"),
    ("California", "CA"), ("Colorado", "CO"), ("Connecticut", "CT"), ("Washington DC", "DC"),
    ("Delaware", "DE"), ("Florida", "FL"), ("Georgia", "GA"), ("Hawaii", "HI"), ("Iowa", "IA"),
    ("Idaho", "ID"), ("Illinois", "IL"), ("Indiana", "IN"), ("Kansas", "KS"), ("Kentucky", "KY"),
    ("Louisiana", "LA"), ("Massachusetts", "MA"), ("Maryland", "MD"), ("Maine", "ME"),
    ("Michigan", "MI"), ("Minnesota", "MN"), ("Missouri", "MO"), ("Mississippi", "MS"),
    ("Montana", "MT"), ("North Carolina", "NC"), ("North Dakota", "ND"), ("Nebraska", "NE"),
    ("New Hampshire", "NH"), ("New Jersey", "NJ"), ("New Mexico", "NM"), ("Nevada", "NV"),
    ("New York", "NY"), ("Ohio", "OH"), ("Oklahoma", "OK"), ("Oregon", "OR"),
    ("Pennsylvania", "PA"), ("Rhode Island", "RI"), ("South Carolina", "SC"),
    ("South Dakota", "SD"), ("Tennessee", "TN"), ("Texas", "TX"), ("Utah", "UT"),
    ("Virginia", "VA"), ("Vermont", "VT"), ("Washington", "WA"), ("Wisconsin", "WI"),
    ("West Virginia", "WV"), ("Wyoming", "WY")]

def containsKey (dict : List (Text × Text)) (key : Text) : Bool :=
  dict.any fun e => e.1 = toLower key

structure QueryParams where
  lastName : Text := []
  firstName : Text := []
  middleName : Text := []
  stateAbbr : Text := []
  deriving DecidableEq

def QueryParams.key (p : QueryParams) : Text :=
  p.lastName ++ ',' :: (p.firstName ++ ',' :: p.stateAbbr)

inductive ParseExn where
  | keyNotFound
  | indexOutOfRange

def stripHyphen (s : Text) : Text := if s.getLast? = some '-' then s.dropLast else s

def splitIn : Text → Option (Text × Text)
  | [] => none
  | c :: s =>
    match chop "-in-".toList (c :: s) with
    | some rest => some ([], rest)
    | none => (splitIn s).map fun p => (c :: p.1, p.2)

def hyphenToSpace (c : Char) : Char := if c = '-' then ' ' else c

/-- The abbreviation of a state that is written in a link, empty if there is none. The indexer of
the dictionary does not fold the case. -/
def stateOf (stateName : Text) : Except ParseExn Text :=
  if containsKey stateAbbrByName stateName then
    match stateAbbrByName.find? fun e => e.1 = stateName with
    | some e => .ok e.2
    | none => .error .keyNotFound
  else if containsKey stateNameByAbbr stateName then .ok stateName
  else .ok []

def partsOf (name : Text) : List Text := (name.splitOn '-').filter fun part => !part.isEmpty

def namesOf (name stateAbbr : Text) : Except ParseExn QueryParams :=
  match partsOf name with
  | [] => .error .indexOutOfRange
  | [first] => .ok { firstName := first, stateAbbr := stateAbbr }
  | [first, last] => .ok { firstName := first, lastName := last, stateAbbr := stateAbbr }
  | first :: middle :: last :: _ =>
    .ok { firstName := first, middleName := toUpper middle, lastName := last
          stateAbbr := stateAbbr }

/-- `strName` before the names are taken out of it, and the text of the state after it. -/
def cutState (query : Text) : Text × Option Text :=
  match splitIn (stripHyphen query) with
  | some (c :: name, state) => (c :: name, some (state.map hyphenToSpace))
  | _ => (stripHyphen query, none)

def parseSearchQuery (query : Text) : Except ParseExn QueryParams :=
  match (cutState query).2 with
  | none => namesOf (cutState query).1 []
  | some state => stateOf state >>= namesOf (cutState query).1

section Entries

structure KeyOrder where
  le : Text → Text → Bool
  total : ∀ s t, le s t = true ∨ le t s = true
  trans : ∀ s t u, le s t = true → le t u = true → le s u = true
  apostrophe : ∀ s t, le s t = true → le t s = true → '\x27' ∈ s → '\x27' ∈ t

def KeyOrder.same (o : KeyOrder) (s t : Text) : Bool := o.le s t && o.le t s

variable (o : KeyOrder)

def addEntry (entries : List QueryParams) (p : QueryParams) : List QueryParams :=
  if entries.any fun e => o.same e.key p.key then entries else entries ++ [p]

def paramsOf (queries : List Text) : List QueryParams :=
  queries.filterMap fun q => (parseSearchQuery q).toOption

def entriesOf (ps : List QueryParams) : List QueryParams := ps.foldl (addEntry o) []

def sortedEntries (ps : List QueryParams) : List QueryParams :=
  (entriesOf o ps).insertionSort fun p q => o.le p.key q.key = true

end Entries

def capFirst (s : Text) : Text :=
  let t := toLower ((s.dropWhile isWhiteSpace).rdropWhile isWhiteSpace)
  if t.length < 2 then toUpper t else toUpper (t.take 1) ++ toLower (t.drop 1)

def filler (n : ℕ) : Text := List.replicate n ' '

/-- What the runtime tells about exceptions: the message and the stack trace of the first one, and
where in the source the two frames of the second one are. -/
structure Traces where
  message : ParseExn → Text
  innerTrace : ParseExn → Text
  parseLocation : Text
  copyLocation : Text

def Traces.parseFrame (t : Traces) : Text :=
  "   at OptOutAddIn.OptOutHelper.ParseSearchQuery(String strName, QueryParams& queryParams)".toList
    ++ t.parseLocation

def Traces.copyFrame (t : Traces) : Text :=
  "   at OptOutAddIn.OptOutHelper.CopyToClipboard(Dictionary`2 dictQueries)".toList ++
    t.copyLocation

def Traces.trace (t : Traces) : Text := t.parseFrame ++ "\r\n".toList ++ t.copyFrame

def commentOf (t : Traces) (query : Text) (e : ParseExn) : Text :=
  "-- key=".toList ++ query ++ ": Link.ParseSearchQuery(".toList ++ (cutState query).1 ++
    "): ".toList ++ t.message e ++ " at ".toList ++ t.innerTrace e ++ " at ".toList ++ t.trace ++
    ['\n']

def comments (t : Traces) (queries : List Text) : Text :=
  queries.flatMap fun q =>
    match parseSearchQuery q with
    | .error e => commentOf t q e
    | .ok _ => []

def stateArgument (maxLast : ℕ) (p : QueryParams) : Text :=
  if p.stateAbbr = [] then []
  else ',' :: (filler (maxLast - p.lastName.length) ++ '\x27' :: (toUpper p.stateAbbr ++ ['\x27']))

def execLine (maxFirst maxLast : ℕ) (p : QueryParams) : Text :=
  "EXEC spSearchResultsDelete \x27".toList ++ (capFirst p.firstName ++ '\x27' :: ',' ::
    (filler (maxFirst - p.firstName.length) ++ '\x27' :: (capFirst p.lastName ++
      '\x27' :: stateArgument maxLast p)))

def longest (texts : List Text) : ℕ := (texts.map List.length).foldl max 0

def commandLines (o : KeyOrder) (ps : List QueryParams) : List Text :=
  (sortedEntries o ps).map (execLine (longest ((entriesOf o ps).map QueryParams.firstName))
    (longest ((entriesOf o ps).map QueryParams.lastName)))

def copyToClipboard (o : KeyOrder) (t : Traces) (queries : List Text) : Option Text :=
  if queries = [] then none
  else some (comments t queries ++ (commandLines o (paramsOf queries)).flatMap (· ++ ['\n']))

def processSelection (o : KeyOrder) (t : Traces) (selection : List (Option Text)) : Option Text :=
  copyToClipboard o t (queriesOf selection)

def processMailItem (o : KeyOrder) (t : Traces) (body : Option Text) : Option Text :=
  processSelection o t [body]

def isNameChar (c : Char) : Bool := c = ' ' || ('a' ≤ c && c ≤ 'z')

def stateKeys : List Text := (stateAbbrByName ++ stateNameByAbbr).map (·.1)

theorem stateKeys_proper : ∀ k ∈ stateKeys, toLower k = k ∧ k.all isNameChar = true := by
  decide +kernel

theorem stateAbbrs_proper : ∀ e ∈ stateAbbrByName, e.2.all isNameChar = true := by
  decide +kernel

theorem containsKey_iff {dict : List (Text × Text)} {t : Text} :
    containsKey dict t = true ↔ ∃ e ∈ dict, e.1 = toLower t := by
  simp [containsKey]

theorem mem_stateKeys {k : Text} :
    k ∈ stateKeys ↔ (∃ e ∈ stateAbbrByName, e.1 = k) ∨ ∃ e ∈ stateNameByAbbr, e.1 = k := by
  simp only [stateKeys, mem_map, mem_append, or_and_right, exists_or]

theorem mem_addAll {q : Text} : ∀ {qs d : List Text},
    q ∈ qs.foldl (fun d q => if q ∈ d then d else d ++ [q]) d ↔ q ∈ d ∨ q ∈ qs
  | [], d => by simp
  | q' :: qs, d => by
    rw [foldl_cons, mem_addAll]
    by_cases h : q' ∈ d
    · rw [if_pos h, mem_cons]
      constructor
      · rintro (hq | hq)
        · exact .inl hq
        · exact .inr (.inr hq)
      · rintro (hq | rfl | hq)
        · exact .inl hq
        · exact .inl h
        · exact .inr hq
    · rw [if_neg h, mem_append, mem_singleton, mem_cons, or_assoc]

theorem mem_parseMailItem {q : Text} {d : List Text} {body : Option Text} :
    q ∈ parseMailItem d body ↔ q ∈ d ∨ ∃ b ∈ body, ∃ l ∈ links b, q = removeEscapes l := by
  rw [parseMailItem, mem_addAll]
  cases body <;> simp [eq_comm]

theorem mem_foldl_parseMailItem {q : Text} : ∀ {selection : List (Option Text)} {d : List Text},
    q ∈ selection.foldl parseMailItem d ↔
      q ∈ d ∨ ∃ b, some b ∈ selection ∧ ∃ l ∈ links b, q = removeEscapes l
  | [], d => by simp
  | body :: selection, d => by
    rw [foldl_cons, mem_foldl_parseMailItem, mem_parseMailItem, or_assoc]
    refine or_congr_right ?_
    constructor
    · rintro (⟨b, hb, hl⟩ | ⟨b, hb, hl⟩)
      · exact ⟨b, by rw [hb]; exact mem_cons_self, hl⟩
      · exact ⟨b, mem_cons_of_mem _ hb, hl⟩
    · rintro ⟨b, hb, hl⟩
      rcases mem_cons.1 hb with rfl | hb
      · exact .inl ⟨b, rfl, hl⟩
      · exact .inr ⟨b, hb, hl⟩

theorem mem_queriesOf {q : Text} {selection : List (Option Text)} :
    q ∈ queriesOf selection ↔ ∃ b, some b ∈ selection ∧ ∃ l ∈ links b, q = removeEscapes l := by
  rw [queriesOf, mem_foldl_parseMailItem]
  simp

theorem mem_paramsOf {p : QueryParams} {queries : List Text} :
    p ∈ paramsOf queries ↔ ∃ q ∈ queries, parseSearchQuery q = .ok p := by
  rw [paramsOf, mem_filterMap]
  refine exists_congr fun q => and_congr_right fun _ => ?_
  cases parseSearchQuery q <;> simp [Except.toOption]

section Dictionary

variable {o : KeyOrder} {s t u : Text}

namespace KeyOrder

theorem same_iff : o.same s t = true ↔ o.le s t = true ∧ o.le t s = true := by
  simp [same]

theorem same_refl (o : KeyOrder) (s : Text) : o.same s s = true :=
  same_iff.2 (by simpa using o.total s s)

theorem same_symm (h : o.same s t = true) : o.same t s = true :=
  same_iff.2 (same_iff.1 h).symm

theorem same_trans (h : o.same s t = true) (h' : o.same t u = true) : o.same s u = true := by
  rw [same_iff] at *
  exact ⟨o.trans _ _ _ h.1 h'.1, o.trans _ _ _ h'.2 h.2⟩

end KeyOrder

def Leads (o : KeyOrder) (ps : List QueryParams) (e : QueryParams) : Prop :=
  ∃ a b, ps = a ++ e :: b ∧ ∀ x ∈ a, o.same x.key e.key = false

theorem mem_foldl_addEntry {e : QueryParams} : ∀ {ps d : List QueryParams},
    e ∈ ps.foldl (addEntry o) d ↔ e ∈ d ∨ ((∀ x ∈ d, o.same x.key e.key = false) ∧ Leads o ps e)
  | [], d => by simp [Leads]
  | p :: ps, d => by
    have hlead : Leads o (p :: ps) e ↔ e = p ∨ o.same p.key e.key = false ∧ Leads o ps e := by
      constructor
      · rintro ⟨_ | ⟨y, a⟩, b, heq, ha⟩
        · exact .inl (List.cons.inj heq).1.symm
        · obtain ⟨rfl, rfl⟩ := List.cons.inj heq
          exact .inr ⟨ha _ mem_cons_self, a, b, rfl, fun x hx => ha x (.tail _ hx)⟩
      · rintro (rfl | ⟨hp, a, b, rfl, ha⟩)
        · exact ⟨[], ps, rfl, by simp⟩
        · refine ⟨p :: a, b, rfl, fun x hx => ?_⟩
          rcases mem_cons.1 hx with rfl | hx
          · exact hp
          · exact ha x hx
    rw [foldl_cons, mem_foldl_addEntry, hlead]
    unfold addEntry
    split_ifs with h
    · obtain ⟨y, hy, hsame⟩ := any_eq_true.1 h
      refine or_congr_right (and_congr_right fun hd => ?_)
      have hne : e ≠ p := by
        rintro rfl
        rw [hd y hy] at hsame
        cases hsame
      have hp : o.same p.key e.key = false := by
        rw [Bool.eq_false_iff]
        intro hpe
        have := hd y hy
        rw [KeyOrder.same_trans hsame hpe] at this
        cases this
      simp [hne, hp]
    · simp only [any_eq_true, not_exists, not_and, Bool.not_eq_true] at h
      simp only [mem_append, mem_singleton]
      constructor
      · rintro ((hd | rfl) | ⟨hall, hps⟩)
        · exact .inl hd
        · exact .inr ⟨h, .inl rfl⟩
        · exact .inr ⟨fun x hx => hall x (.inl hx), .inr ⟨hall p (.inr rfl), hps⟩⟩
      · rintro (hd | ⟨hd, rfl | ⟨hp, hps⟩⟩)
        · exact .inl (.inl hd)
        · exact .inl (.inr rfl)
        · refine .inr ⟨fun x hx => ?_, hps⟩
          rcases hx with hx | rfl
          · exact hd x hx
          · exact hp

theorem mem_entries_iff {e : QueryParams} {ps : List QueryParams} :
    e ∈ entriesOf o ps ↔ Leads o ps e := by
  rw [entriesOf, mem_foldl_addEntry]
  simp

theorem pairwise_addEntry : ∀ {ps d : List QueryParams},
    d.Pairwise (fun e e' => o.same e.key e'.key = false) →
      (ps.foldl (addEntry o) d).Pairwise fun e e' => o.same e.key e'.key = false
  | [], _, h => h
  | p :: ps, d, h => by
    rw [foldl_cons]
    apply pairwise_addEntry
    unfold addEntry
    split_ifs with hp
    · exact h
    · simp only [any_eq_true, not_exists, not_and, Bool.not_eq_true] at hp
      exact pairwise_append.2 ⟨h, pairwise_singleton _ _, fun a ha b hb => by
        rw [mem_singleton.1 hb]
        exact hp a ha⟩

theorem entries_pairwise (o : KeyOrder) (ps : List QueryParams) :
    (entriesOf o ps).Pairwise fun e e' => o.same e.key e'.key = false :=
  pairwise_addEntry .nil

theorem exists_leads {p : QueryParams} : ∀ {ps : List QueryParams}, p ∈ ps →
    ∃ e, Leads o ps e ∧ o.same e.key p.key = true
  | x :: ps, h => by
    by_cases hx : o.same x.key p.key = true
    · exact ⟨x, ⟨[], ps, rfl, by simp⟩, hx⟩
    · rcases mem_cons.1 h with rfl | h
      · exact absurd (o.same_refl _) hx
      obtain ⟨e, ⟨a, b, rfl, ha⟩, he⟩ := exists_leads h
      refine ⟨e, ⟨x :: a, b, rfl, fun y hy => ?_⟩, he⟩
      rcases mem_cons.1 hy with rfl | hy
      · rw [Bool.eq_false_iff]
        exact fun hye => hx (KeyOrder.same_trans hye he)
      · exact ha y hy

end Dictionary

end AciX.OptOut
