import AciX.Encoding.Composite

/-!
# The texts of a page's blocks

`ContentBlock.ToClient` puts the values of a page's query into the header and the body of each
section's template, one name after the other, before the template is formatted with the rows of the
section. `plainToClient` fills all names at once, with values whose braces are escaped. The two
agree exactly when no value has a brace and no value stands in the name of another pair
(`plainText_iff`).
-/

namespace AciX.Page

open List

variable {V : Type}

abbrev ValueRow (V : Type) := List (Option V)

structure SectionTemplate (V : Type) where
  blockName : Text
  blockType : Option Text := none
  sectionName : Option Text := none
  sectionType : Option Text := none
  description : Option Text := none
  variationID : ℤ := 0
  multirowPrefix : Option Text := none
  multirowSuffix : Option Text := none
  multirowDelimiter : Option Text := none
  headerTemplate : Option Text := none
  headerDefault : Option Text := none
  bodyTemplate : Option Text := none
  bodyDefault : Option Text := none
  valueRows : List (ValueRow V) := []

structure ContentSection where
  sectionName : Option Text
  description : Option Text
  sectionType : Option Text
  blockType : Option Text
  selectedVariationID : ℤ
  headerContent : Option Text
  bodyContent : Text

structure ContentBlock where
  blockName : Text
  blockType : Option Text
  sections : List ContentSection

section Model

def replacePairs (pairs : List (Text × Text)) (template : Text) : Text :=
  pairs.foldl (fun s p => replaceAll s (braced p.1) p.2) template

def replaceTemplate (pairs : List (Text × Text)) : Option Text → Option Text
  | none => none
  | some [] => some []
  | some template => some (replacePairs pairs template)

def replaceKeyValuePairs (keyValuePairs : Option (List (Text × Text)))
    (t : SectionTemplate V) : SectionTemplate V :=
  match keyValuePairs with
  | none => t
  | some pairs =>
    { t with
      headerTemplate := replaceTemplate pairs t.headerTemplate
      bodyTemplate := replaceTemplate pairs t.bodyTemplate }

structure Multirow where
  start : Text := []
  finish : Text := []
  delimiter : Text := []
  bodies : List Text := []

def errorText (t : SectionTemplate V) (m : Multirow) (e : FormatError) : Text :=
  "Error: Block=".toList ++ t.blockName ++ ", Section=".toList ++ t.sectionName.getD [] ++
  ", Prefix=".toList ++ m.start ++ ", Suffix=".toList ++ m.finish ++
  ", Delim=".toList ++ m.delimiter ++ ", Var=".toList ++ (toString t.variationID).toList ++
  ": ".toList ++ e.message

variable (display : V → Text → Except FormatError Text)

def content (template : Text) (default : Option Text) :
    Option (ValueRow V) → Except FormatError Text
  | none => .ok (if '\x7b' ∈ template then default.getD [] else template)
  | some row => format display row template

def multirowText (text : Option Text) (row : ValueRow V) (old : Text) :
    Except FormatError Text :=
  match text with
  | none => .ok old
  | some [] => .ok old
  | some text => format display row text

def bodyRow (t : SectionTemplate V) (body : Option (ValueRow V) → Except FormatError Text)
    (m : Multirow) (row : ValueRow V) : Except Text Multirow := do
  let text ← (body (some row)).mapError (errorText t m)
  let m := { m with bodies := m.bodies ++ [text] }
  let start ← (multirowText display t.multirowPrefix row m.start).mapError (errorText t m)
  let m := { m with start := start }
  let finish ← (multirowText display t.multirowSuffix row m.finish).mapError (errorText t m)
  let m := { m with finish := finish }
  let delimiter ←
    (multirowText display t.multirowDelimiter row m.delimiter).mapError (errorText t m)
  return { m with delimiter := delimiter }

def headerText (t : SectionTemplate V)
    (header : Option (Option (ValueRow V) → Except FormatError Text)) :
    Except Text (Option Text) :=
  match header with
  | none => .ok none
  | some header => ((header t.valueRows.head?).mapError (errorText t {})).map some

def bodyTexts (t : SectionTemplate V)
    (body : Option (Option (ValueRow V) → Except FormatError Text)) : Except Text Multirow :=
  match body with
  | none => .ok {}
  | some body =>
    if t.valueRows = [] then
      ((body none).mapError (errorText t {})).map fun text => { bodies := [text] }
    else t.valueRows.foldlM (bodyRow display t body) {}

def toSection (t : SectionTemplate V)
    (header body : Option (Option (ValueRow V) → Except FormatError Text)) :
    Except Text ContentSection := do
  let headerContent ← headerText t header
  let m ← bodyTexts display t body
  return {
    sectionName := t.sectionName
    description := t.description
    sectionType := t.sectionType
    blockType := t.blockType
    selectedVariationID := t.variationID
    headerContent := headerContent
    bodyContent := m.start ++ m.delimiter.intercalate m.bodies ++ m.finish }

def addSection (blocks : List ContentBlock) (t : SectionTemplate V) (s : ContentSection) :
    List ContentBlock :=
  if blocks.any (·.blockName = t.blockName) then
    blocks.map fun b => if b.blockName = t.blockName then { b with sections := b.sections ++ [s] }
      else b
  else blocks ++ [{ blockName := t.blockName, blockType := t.blockType, sections := [s] }]

def toClient (keyValuePairs : Option (List (Text × Text)))
    (sectionTemplates : List (SectionTemplate V)) : Except Text (List ContentBlock) :=
  sectionTemplates.foldlM (fun blocks t => do
    let t := replaceKeyValuePairs keyValuePairs t
    let s ← toSection display t
      (t.headerTemplate.map fun template => content display template t.headerDefault)
      (t.bodyTemplate.map fun template => content display template t.bodyDefault)
    return addSection blocks t s) []

end Model

section Plain

/-- The pairs a page supplies: each name once, and none with a brace, which no placeholder holds. -/
structure KeyValuePairs where
  pairs : List (Text × Text)
  distinct : (pairs.map Prod.fst).Nodup
  named : ∀ p ∈ pairs, noBraces p.1 = true

def KeyValuePairs.value (kv : KeyValuePairs) (key : Text) : Option Text := kv.pairs.lookup key

variable (display : V → Text → Except FormatError Text)

def plainContent (values : Text → Option Text) (template : Text) (default : Option Text) :
    Option (ValueRow V) → Except FormatError Text
  | none => .ok (if '\x7b' ∈ fill (fun w => (values w).map fun _ => []) template
      then default.getD [] else fill values template)
  | some row => format display row (fill (fun w => (values w).map escape) template)

def plainToClient (values : Text → Option Text)
    (sectionTemplates : List (SectionTemplate V)) : Except Text (List ContentBlock) :=
  sectionTemplates.foldlM (fun blocks t => do
    let s ← toSection display t
      (t.headerTemplate.map fun template => plainContent display values template t.headerDefault)
      (t.bodyTemplate.map fun template => plainContent display values template t.bodyDefault)
    return addSection blocks t s) []

/-- The page that the values give at once is also what the pairs give, in whatever order they are
replaced. -/
def PlainText (kv : KeyValuePairs) : Prop :=
  ∀ (sectionTemplates : List (SectionTemplate V)) (blocks : List ContentBlock),
    plainToClient display kv.value sectionTemplates = .ok blocks →
      ∀ pairs : List (Text × Text), pairs.Perm kv.pairs →
        toClient display (some pairs) sectionTemplates = .ok blocks

/-- No value has a brace, and none is part of another key. -/
def KeyValuePairs.Inert (kv : KeyValuePairs) : Prop :=
  (∀ p ∈ kv.pairs, noBraces p.2 = true) ∧
    ∀ p ∈ kv.pairs, ∀ q ∈ kv.pairs, p.1 ≠ q.1 → ¬p.2 <:+: q.1

end Plain

section Replace

theorem foldl_replace (s : Text) : ∀ (pairs : List (Text × Text)) (f : Text → Option Text),
    (∀ p ∈ pairs, noBraces p.1 = true ∧ noBraces p.2 = true) →
    pairs.Pairwise (fun p q => ¬p.2 <:+: q.1) →
    (∀ w v, f w = some v → noBraces v = true ∧ ∀ p ∈ pairs, ¬v <:+: p.1) →
    replacePairs pairs (fill f s) = fill (fun w => (f w).or (pairs.lookup w)) s
  | [], f, _, _, _ => by simp [replacePairs]
  | p :: pairs, f, hb, hpair, hf => by
    have hp := hb p (by simp)
    obtain ⟨hpq, hpair⟩ := pairwise_cons.1 hpair
    have hfirst : replacePairs (p :: pairs) (fill f s)
        = replacePairs pairs (fill (fun w => (f w).or (single p.1 p.2 w)) s) := by
      rw [← fill_fill (fun w v hw => ⟨(hf w v hw).1, (hf w v hw).2 p (by simp)⟩),
        ← replaceAll_braced hp.1]
      rfl
    rw [hfirst, foldl_replace s pairs _ (fun q hq => hb q (by simp [hq])) hpair]
    · congr 1
      funext w
      rw [Option.or_assoc, lookup_cons]
      by_cases hw : w = p.1
      · simp [single, hw]
      · simp [single, hw, beq_false_of_ne hw]
    · intro w v hw
      rcases Option.or_eq_some_iff.1 hw with hw | ⟨-, hw⟩
      · exact ⟨(hf w v hw).1, fun q hq => (hf w v hw).2 q (by simp [hq])⟩
      · unfold single at hw
        split_ifs at hw
        cases hw
        exact ⟨hp.2, hpq⟩

theorem fill_none (s : Text) : fill (fun _ => none) s = s := by
  induction s with
  | nil => rfl
  | cons c s ih => rw [fill_cons fun _ _ _ => rfl, ih]

variable {kv : KeyValuePairs} {pairs : List (Text × Text)}

theorem lookup_eq_some_iff (h : (pairs.map Prod.fst).Nodup) {w v : Text} :
    pairs.lookup w = some v ↔ (w, v) ∈ pairs := by
  induction pairs with
  | nil => simp
  | cons p pairs ih =>
    obtain ⟨hp, h⟩ := nodup_cons.1 h
    rw [lookup_cons, mem_cons]
    by_cases hw : w = p.1
    · subst hw
      have hnot : (p.1, v) ∉ pairs := fun hm => hp (mem_map.2 ⟨_, hm, rfl⟩)
      simp [hnot, Prod.ext_iff, eq_comm]
    · simp [beq_false_of_ne hw, ih h, Prod.ext_iff, hw]

theorem KeyValuePairs.lookup_perm (h : pairs.Perm kv.pairs) (w : Text) :
    pairs.lookup w = kv.value w := by
  have hd : (pairs.map Prod.fst).Nodup := (h.map _).nodup_iff.2 kv.distinct
  ext v
  rw [KeyValuePairs.value, lookup_eq_some_iff hd, lookup_eq_some_iff kv.distinct, h.mem_iff]

theorem KeyValuePairs.Inert.replacePairs (hi : kv.Inert) (h : pairs.Perm kv.pairs) (s : Text) :
    replacePairs pairs s = fill kv.value s := by
  have hd : (pairs.map Prod.fst).Nodup := (h.map _).nodup_iff.2 kv.distinct
  have hpair : pairs.Pairwise fun p q => ¬p.2 <:+: q.1 := by
    refine (pairwise_map.1 hd).imp_of_mem fun hp hq hne => ?_
    exact hi.2 _ (h.subset hp) _ (h.subset hq) hne
  have hb : ∀ p ∈ pairs, noBraces p.1 = true ∧ noBraces p.2 = true :=
    fun p hp => ⟨kv.named p (h.subset hp), hi.1 p (h.subset hp)⟩
  have := foldl_replace s pairs (fun _ => none) hb hpair (by simp)
  rw [fill_none] at this
  simpa [KeyValuePairs.lookup_perm h] using this

end Replace

section Sufficient

variable (display : V → Text → Except FormatError Text) {kv : KeyValuePairs}
  {pairs : List (Text × Text)}

theorem KeyValuePairs.Inert.value (hi : kv.Inert) {w v : Text} (h : kv.value w = some v) :
    noBraces v = true :=
  hi.1 (w, v) ((lookup_eq_some_iff kv.distinct).1 h)

theorem KeyValuePairs.Inert.content (hi : kv.Inert) (h : pairs.Perm kv.pairs) (template : Text)
    (default : Option Text) (row : Option (ValueRow V)) :
    Page.content display (Page.replacePairs pairs template) default row =
      plainContent display kv.value template default row := by
  rw [hi.replacePairs h]
  cases row with
  | none => simp only [Page.content, plainContent, mem_fill_blank fun w v hw => hi.value hw]
  | some row =>
    have hescape : (fun w => (kv.value w).map escape) = kv.value := by
      funext w
      rcases hw : kv.value w with _ | v
      · rfl
      · rw [Option.map_some, escape_eq_self.2 (hi.value hw)]
    simp only [Page.content, plainContent, hescape]

theorem replaceTemplate_eq (pairs : List (Text × Text)) (template : Option Text) :
    replaceTemplate pairs template = template.map (replacePairs pairs) := by
  have hnil : replacePairs pairs [] = [] := by
    induction pairs with
    | nil => rfl
    | cons p pairs ih => exact ih
  unfold replaceTemplate
  split
  · rfl
  · rw [Option.map_some, hnil]
  · rfl

theorem KeyValuePairs.Inert.toClient (hi : kv.Inert) (h : pairs.Perm kv.pairs)
    (sectionTemplates : List (SectionTemplate V)) :
    Page.toClient display (some pairs) sectionTemplates =
      plainToClient display kv.value sectionTemplates := by
  unfold Page.toClient plainToClient
  congr 1
  funext blocks t
  have htexts : ∀ (template default : Option Text),
      ((replaceTemplate pairs template).map fun s => Page.content display s default) =
        template.map fun s => plainContent display kv.value s default := by
    intro template default
    rw [replaceTemplate_eq, Option.map_map]
    congr 1
    funext s row
    exact hi.content display h s default row
  simp only [replaceKeyValuePairs, htexts]
  rfl

end Sufficient

section Necessary

variable (display : V → Text → Except FormatError Text) {kv : KeyValuePairs}
  {pairs : List (Text × Text)} {p : Text × Text}

def oneRow (template : Text) : SectionTemplate V :=
  { blockName := [], bodyTemplate := some template, valueRows := [[]] }

def oneBlock (text : Text) : List ContentBlock :=
  [{ blockName := [], blockType := none, sections := [{
      sectionName := none, description := none, sectionType := none, blockType := none,
      selectedVariationID := 0, headerContent := none, bodyContent := text }] }]

theorem toSection_oneRow (template text : Text)
    (body : Option (ValueRow V) → Except FormatError Text) :
    (do
      let s ← toSection display (oneRow template) none (some body)
      return addSection [] (oneRow template : SectionTemplate V) s) = .ok (oneBlock text) ↔
      body (some []) = .ok text := by
  have hbody : toSection display (oneRow template) none (some body) =
      ((body (some [])).mapError
        (errorText (oneRow template : SectionTemplate V) {})).map fun text =>
        ({ sectionName := none, description := none, sectionType := none, blockType := none,
           selectedVariationID := 0, headerContent := none, bodyContent := text } :
             ContentSection) := by
    rcases hb : body (some []) with e | u
    · simp only [toSection, headerText, bodyTexts, oneRow, foldlM_cons, bodyRow, hb]
      rfl
    · simp only [toSection, headerText, bodyTexts, oneRow, foldlM_cons, bodyRow, hb]
      simp [Except.mapError, Except.map, bind, Except.bind, pure, Except.pure, multirowText]
  rw [hbody]
  rcases body (some []) with e | u
  · constructor
    · intro h
      cases h
    · intro h
      cases h
  · constructor
    · intro h
      simp [Except.mapError, Except.map, bind, Except.bind, pure, Except.pure, addSection,
        oneBlock] at h
      rw [h.2.2]
    · rintro ⟨⟩
      rfl

theorem plainToClient_oneRow (values : Text → Option Text) (template text : Text) :
    plainToClient display values [oneRow template] = .ok (oneBlock text) ↔
      format display [] (fill (fun w => (values w).map escape) template) = .ok text := by
  have h := toSection_oneRow display template text (plainContent display values template none)
  simp only [plainToClient, foldlM_cons, foldlM_nil, bind_pure]
  exact h

theorem toClient_oneRow (pairs : List (Text × Text)) (template text : Text) :
    toClient display (some pairs) [oneRow template] = .ok (oneBlock text) ↔
      format display [] (replacePairs pairs template) = .ok text := by
  have h := toSection_oneRow display template text
    (content display (replacePairs pairs template) none)
  simp only [toClient, foldlM_cons, foldlM_nil, bind_pure, replaceKeyValuePairs, replaceTemplate_eq]
  exact h

theorem PlainText.format {display : V → Text → Except FormatError Text}
    (hplain : PlainText display kv) {template text : Text}
    (htext : fill (fun w => (kv.value w).map escape) template = escape text)
    (h : kv.pairs.Perm pairs) : replacePairs pairs template = escape text := by
  rw [← format_nil_iff display]
  rw [← format_nil_iff display] at htext
  exact (toClient_oneRow display pairs template text).1
    (hplain _ _ ((plainToClient_oneRow display _ template text).2 htext) pairs h.symm)

theorem KeyValuePairs.value_of_mem (h : p ∈ kv.pairs) : kv.value p.1 = some p.2 :=
  (lookup_eq_some_iff kv.distinct).2 h

theorem exists_perm_last (h : p ∈ pairs) : ∃ rest, pairs.Perm (rest ++ [p]) :=
  ⟨pairs.erase p, (perm_cons_erase h).trans (perm_append_singleton _ _).symm⟩

theorem KeyValuePairs.key_ne {rest : List (Text × Text)}
    (h : kv.pairs.Perm (rest ++ [p])) : ∀ q ∈ rest, noBraces q.1 = true ∧ q.1 ≠ p.1 := by
  intro q hq
  have hd := (h.map Prod.fst).nodup_iff.1 kv.distinct
  rw [map_append, nodup_append] at hd
  exact ⟨kv.named q (h.symm.subset (by simp [hq])), hd.2.2 q.1 (mem_map_of_mem hq) p.1 (by simp)⟩

theorem replacePairs_eq_self {s : Text} :
    ∀ {pairs : List (Text × Text)}, (∀ p ∈ pairs, replaceAll s (braced p.1) p.2 = s) →
      replacePairs pairs s = s
  | [], _ => rfl
  | p :: pairs, h => by
    have hrest : replacePairs pairs s = s := replacePairs_eq_self fun q hq => h q (by simp [hq])
    rw [replacePairs, foldl_cons, h p (by simp)]
    exact hrest

theorem replacePairs_concat (rest : List (Text × Text)) (p : Text × Text) (s : Text) :
    replacePairs (rest ++ [p]) s = replaceAll (replacePairs rest s) (braced p.1) p.2 := by
  rw [replacePairs, foldl_append]
  rfl

theorem PlainText.noBraces {display : V → Text → Except FormatError Text}
    (hplain : PlainText display kv) : ∀ p ∈ kv.pairs, noBraces p.2 = true := by
  intro p hp
  obtain ⟨rest, hperm⟩ := exists_perm_last hp
  have hfill : ∀ values : Text → Option Text,
      fill values (braced p.1) = (values p.1).getD (braced p.1) := by
    intro values
    have := fill_braced_append (kv.named p hp) values []
    rwa [append_nil, fill_nil, append_nil] at this
  have hvalue : fill (fun w => (kv.value w).map escape) (braced p.1) = escape p.2 := by
    rw [hfill, KeyValuePairs.value_of_mem hp]
    rfl
  have hrest : replacePairs rest (braced p.1) = braced p.1 := by
    refine replacePairs_eq_self fun q hq => ?_
    obtain ⟨hq, hne⟩ := KeyValuePairs.key_ne hperm q hq
    rw [replaceAll_braced hq, hfill, single, if_neg hne.symm]
    rfl
  have hcode := hplain.format hvalue hperm
  rw [replacePairs_concat, hrest, replaceAll_braced (kv.named p hp), hfill, single, if_pos rfl]
    at hcode
  exact escape_eq_self.1 hcode.symm

def nested (x key y : Text) : Text :=
  '\x7b' :: '\x7b' :: (x ++ (braced key ++ (y ++ ['\x7d', '\x7d'])))

theorem fill_nested {x key y v : Text} {values : Text → Option Text}
    (hx : AciX.noBraces x = true) (hkey : AciX.noBraces key = true) (hy : AciX.noBraces y = true)
    (hv : values key = some v) :
    fill values (nested x key y) = '\x7b' :: (braced (x ++ v ++ y) ++ ['\x7d']) := by
  have hinner := fill_braced_append hkey values (y ++ ['\x7d', '\x7d'])
  rw [hv, Option.getD_some, fill_append hy] at hinner
  have hclose : fill values ['\x7d', '\x7d'] = ['\x7d', '\x7d'] := rfl
  have houter : fill values (nested x key y) =
      '\x7b' :: '\x7b' :: (x ++ fill values (braced key ++ (y ++ ['\x7d', '\x7d']))) := by
    have h := fill_open (k := []) rfl values (x ++ (braced key ++ (y ++ ['\x7d', '\x7d'])))
    have h' := fill_open hx values (key ++ ['\x7d'] ++ (y ++ ['\x7d', '\x7d']))
    simp only [nil_append] at h
    rw [nested, h]
    exact congrArg _ h'
  rw [houter, hinner, hclose]
  simp [braced]

theorem fill_doubled {k : Text} (hk : AciX.noBraces k = true) (values : Text → Option Text) :
    fill values ('\x7b' :: (braced k ++ ['\x7d'])) =
      '\x7b' :: ((values k).getD (braced k) ++ ['\x7d']) := by
  have h := fill_open (k := []) rfl values (k ++ ['\x7d'] ++ ['\x7d'])
  simp only [nil_append] at h
  have hname := fill_braced_append hk values ['\x7d']
  exact h.trans (congrArg _ hname)

theorem escape_braced {k : Text} (hk : AciX.noBraces k = true) :
    escape (braced k) = '\x7b' :: (braced k ++ ['\x7d']) := by
  have hk := escape_eq_self.2 hk
  simp [braced, escape, escape_append, hk]

theorem PlainText.not_infix {display : V → Text → Except FormatError Text}
    (hplain : PlainText display kv) {p q : Text × Text} (hp : p ∈ kv.pairs) (hq : q ∈ kv.pairs)
    (hne : p.1 ≠ q.1) : ¬p.2 <:+: q.1 := by
  rintro ⟨x, y, hxy⟩
  obtain ⟨rest, hperm⟩ := exists_perm_last hq
  have hpr : p ∈ rest := by
    rcases mem_append.1 (hperm.subset hp) with h | h
    · exact h
    · exact absurd (congrArg Prod.fst (mem_singleton.1 h)) hne
  have hperm : kv.pairs.Perm ((p :: rest.erase p) ++ [q]) :=
    hperm.trans ((perm_cons_erase hpr).append_right [q])
  have hpk := kv.named p hp
  have hqk := kv.named q hq
  obtain ⟨⟨hx, -⟩, hy⟩ : (AciX.noBraces x = true ∧ _) ∧ AciX.noBraces y = true := by
    rwa [← hxy, noBraces_append, noBraces_append] at hqk
  have hvalue : fill (fun w => (kv.value w).map escape) (nested x p.1 y) = escape (braced q.1) := by
    rw [fill_nested hx hpk hy (v := p.2), hxy, escape_braced hqk]
    rw [KeyValuePairs.value_of_mem hp, Option.map_some, escape_eq_self.2 (hplain.noBraces p hp)]
  have hfirst : replacePairs (p :: rest.erase p) (nested x p.1 y) =
      replacePairs (rest.erase p) ('\x7b' :: (braced q.1 ++ ['\x7d'])) := by
    have hp1 : single p.1 p.2 p.1 = some p.2 := if_pos rfl
    rw [← hxy, ← fill_nested hx hpk hy hp1, ← replaceAll_braced hpk]
    rfl
  have hrest : replacePairs (rest.erase p) ('\x7b' :: (braced q.1 ++ ['\x7d'])) =
      '\x7b' :: (braced q.1 ++ ['\x7d']) := by
    refine replacePairs_eq_self fun r hr => ?_
    obtain ⟨hrk, hrne⟩ := KeyValuePairs.key_ne hperm r (mem_cons_of_mem p hr)
    rw [replaceAll_braced hrk, fill_doubled hqk, single, if_neg hrne.symm, Option.getD_none]
  have hcode := hplain.format hvalue hperm
  rw [replacePairs_concat, hfirst, hrest, replaceAll_braced hqk, fill_doubled hqk, single,
    if_pos rfl, Option.getD_some, escape_braced hqk, List.cons.injEq] at hcode
  have hqv := hplain.noBraces q hq
  rcases hq2 : q.2 with _ | ⟨c, v⟩
  · rw [hq2] at hcode
    simp [braced] at hcode
  · rw [hq2] at hcode hqv
    obtain ⟨rfl, -⟩ := List.cons.inj hcode.2
    exact (noBraces_cons.1 hqv).1.1 rfl

end Necessary

section Exact

variable (display : V → Text → Except FormatError Text)

/-- Whatever the order of the pairs, the values are shown as plain text exactly if none has a brace
in it and none is a part of the key of another pair. -/
theorem plainText_iff (kv : KeyValuePairs) : PlainText display kv ↔ kv.Inert := by
  constructor
  · intro hplain
    exact ⟨hplain.noBraces, fun p hp q hq hne => hplain.not_infix hp hq hne⟩
  · intro hi sectionTemplates blocks h pairs hperm
    rw [hi.toClient display hperm, h]

def positionalName : KeyValuePairs where
  pairs := [(['n', 'a', 'm', 'e'], ['\x7b', '0', '\x7d'])]
  distinct := by decide
  named := by decide

theorem positionalName_throws :
    plainToClient (fun (v : Text) _ => .ok v) positionalName.value
        [oneRow (braced ['n', 'a', 'm', 'e'])] = .ok (oneBlock ['\x7b', '0', '\x7d']) ∧
      toClient (fun (v : Text) _ => .ok v) (some positionalName.pairs)
        [oneRow (braced ['n', 'a', 'm', 'e'])] =
          .error (errorText (oneRow [] : SectionTemplate Text) {} .outOfRange) := by
  constructor
  · rfl
  · rfl

end Exact

end AciX.Page
