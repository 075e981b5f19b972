import AciX.Db
import AciX.Sql.Case
import AciX.Sql.Insert

/-!
# Importing the variations of pages

`spVariationImport` replaces the content of all pages by the rows of `VariationImport`. It selects
the distinct blocks, sections and variations of the rows and puts them together again by their
names. A row is stored (`ContentDb.Stored`) if there is one variation for it afterwards, in one
section of its name and one block of its name on its page.
-/

namespace AciX.Import

open Sql

structure Fields where
  description : Option Text := none
  multirowPrefix : Option Text := none
  multirowDelimiter : Option Text := none
  multirowSuffix : Option Text := none
  viewName : Option Text := none
  viewFieldNames : Option Text := none
  headerTemplate : Option Text := none
  headerDefault : Option Text := none
  bodyTemplate : Option Text := none
  bodyDefault : Option Text := none
  deriving DecidableEq

def Fields.key (f : Fields) : Fields where
  description := f.description.map collate
  multirowPrefix := f.multirowPrefix.map collate
  multirowDelimiter := f.multirowDelimiter.map collate
  multirowSuffix := f.multirowSuffix.map collate
  viewName := f.viewName.map collate
  viewFieldNames := f.viewFieldNames.map collate
  headerTemplate := f.headerTemplate.map collate
  headerDefault := f.headerDefault.map collate
  bodyTemplate := f.bodyTemplate.map collate
  bodyDefault := f.bodyDefault.map collate

structure ImportRow where
  valid : Option Text
  pageCode : Option Text
  blockName : Option Text
  blockType : Option Text := none
  sectionName : Option Text
  sectionType : Option Text := none
  fields : Fields := {}

structure StoredBlock extends BlockRow where
  blockType : Text

structure StoredSection extends SectionRow where
  sectionType : Text

structure StoredVariation where
  id : ℤ
  sectionID : ℤ
  isEnabled : Bool
  fields : Fields

structure ContentDb where
  pages : List PageRow := []
  pageBlocks : List PageBlockRow := []
  blocks : List StoredBlock := []
  sections : List StoredSection := []
  variations : List StoredVariation := []

def defaultBlockType : Text := "text".toList

def defaultSectionType : Text := "NormalText".toList

section Model

def sameName (a b : Option Text) : Bool := eqNull (a.map collate) (b.map collate)

def isValid (valid : Option Text) : Bool := sameName valid (some ['y'])

def fits (n : ℕ) (s : Text) : Bool := (rtrim s).length ≤ n

namespace ImportRow

variable (r : ImportRow)

def fullBlockName : Option Text := do
  let page ← r.pageCode
  let block ← r.blockName
  some (page ++ ':' :: block)

def fullSectionName : Option Text := do
  let block ← r.fullBlockName
  let sec ← r.sectionName
  some (block ++ ':' :: sec)

end ImportRow

structure TempBlock where
  valid : Option Text
  pageCode : Option Text
  blockName : Option Text
  blockType : Text

namespace TempBlock

def ofRow (r : ImportRow) : TempBlock where
  valid := r.valid
  pageCode := r.pageCode
  blockName := r.fullBlockName
  blockType := r.blockType.getD defaultBlockType

def key (t : TempBlock) : Option Text × Option Text × Option Text × Text :=
  (t.valid.map collate, t.pageCode.map collate, t.blockName.map collate,
    collate t.blockType)

def row (t : TempBlock) (id : ℤ) : StoredBlock where
  id := id
  blockName := varchar 128 (t.blockName.getD [])
  blockType := varchar 20 t.blockType
  isEnabled := isValid t.valid

def storable (t : TempBlock) : Bool := t.blockName.any (fits 128) && fits 20 t.blockType

end TempBlock

structure TempSection where
  valid : Option Text
  blockName : Option Text
  sectionName : Option Text
  sectionType : Text

namespace TempSection

def ofRow (r : ImportRow) : TempSection where
  valid := r.valid
  blockName := r.fullBlockName
  sectionName := r.fullSectionName
  sectionType := r.sectionType.getD defaultSectionType

def key (t : TempSection) : Option Text × Option Text × Option Text × Text :=
  (t.valid.map collate, t.blockName.map collate, t.sectionName.map collate,
    collate t.sectionType)

end TempSection

structure TempVariation where
  valid : Option Text
  sectionName : Option Text
  fields : Fields

namespace TempVariation

def ofRow (r : ImportRow) : TempVariation where
  valid := r.valid
  sectionName := r.fullSectionName
  fields := r.fields

def key (t : TempVariation) : Option Text × Option Text × Fields :=
  (t.valid.map collate, t.sectionName.map collate, t.fields.key)

end TempVariation

abbrev NewSection := TempSection × StoredBlock

namespace NewSection

def key (x : NewSection) : ℤ × Option Text × Text × Bool :=
  (x.2.id, x.1.sectionName.map collate, collate x.1.sectionType, isValid x.1.valid)

def row (x : NewSection) (id : ℤ) : StoredSection where
  id := id
  blockID := x.2.id
  sectionName := varchar 128 (x.1.sectionName.getD [])
  sectionType := varchar 20 x.1.sectionType
  isEnabled := isValid x.1.valid

def storable (x : NewSection) : Bool := x.1.sectionName.any (fits 128) && fits 20 x.1.sectionType

end NewSection

abbrev NewVariation := TempVariation × StoredSection

namespace NewVariation

def key (x : NewVariation) : ℤ × Fields × Bool := (x.2.id, x.1.fields.key, isValid x.1.valid)

def row (x : NewVariation) (id : ℤ) : StoredVariation where
  id := id
  sectionID := x.2.id
  isEnabled := isValid x.1.valid
  fields := { x.1.fields with viewName := x.1.fields.viewName.map (varchar 255) }

def storable (x : NewVariation) : Bool := x.1.fields.viewName.all (fits 255)

end NewVariation

variable (rows : List ImportRow)

def tempPages : List (Option Text) :=
  distinctOn (·.map collate) (rows.map (·.pageCode))

def tempBlocks : List TempBlock := distinctOn TempBlock.key (rows.map .ofRow)

def tempSections : List TempSection := distinctOn TempSection.key (rows.map .ofRow)

def tempVariations : List TempVariation := distinctOn TempVariation.key (rows.map .ofRow)

def codesWithoutPage (pages : List PageRow) : List Text :=
  (tempPages rows).reduceOption.filter fun code =>
    !pages.any fun p => sameName p.pageCode (some code)

def newPages (pages : List PageRow) : List Text :=
  distinctOn collate (codesWithoutPage rows pages)

def newPage (code : Text) (id : ℤ) : PageRow where
  id := id
  pageCode := some (varchar 50 code)

def insertPages (pages : List PageRow) : List PageRow :=
  pages ++ insertAll (fits 50) newPage (1 + maxFrom 0 (pages.map (·.id)))
    (newPages rows pages)

def insertBlocks (next : ℤ) : List StoredBlock :=
  insertAll TempBlock.storable TempBlock.row next (tempBlocks rows)

def insertPageBlocks (pages : List PageRow) (blocks : List StoredBlock) : List PageBlockRow :=
  distinctOn id ((join (fun x b => sameName (some b.blockName) x.2.blockName)
    (join (fun p t => sameName t.pageCode p.pageCode) pages (tempBlocks rows)) blocks).map
      fun x => ⟨x.1.1.id, x.2.id⟩)

def selectSections (blocks : List StoredBlock) : List NewSection :=
  join (fun t b => sameName (some b.blockName) t.blockName) (tempSections rows) blocks

def insertSections (next : ℤ) (blocks : List StoredBlock) : List StoredSection :=
  insertAll NewSection.storable NewSection.row next
    (distinctOn NewSection.key (selectSections rows blocks))

def selectVariations (sections : List StoredSection) : List NewVariation :=
  join (fun t s => sameName (some s.sectionName) t.sectionName) (tempVariations rows) sections

def insertVariations (next : ℤ) (sections : List StoredSection) : List StoredVariation :=
  insertAll NewVariation.storable NewVariation.row next
    (distinctOn NewVariation.key (selectVariations rows sections))

/-- The tables but `Page` are emptied first. -/
def spVariationImport (db : ContentDb) : ContentDb :=
  let pages := insertPages rows db.pages
  let blocks := insertBlocks rows (1 + maxFrom 0 (db.blocks.map (·.id)))
  let sections := insertSections rows (1 + maxFrom 0 (db.sections.map (·.id))) blocks
  { pages := pages
    pageBlocks := insertPageBlocks rows pages blocks
    blocks := blocks
    sections := sections
    variations := insertVariations rows (1 + maxFrom 0 (db.variations.map (·.id))) sections }

end Model

section Statement

structure ImportRow.Complete (r : ImportRow) : Prop where
  valid : isValid r.valid = true
  pageCode : r.pageCode.isSome = true
  blockName : r.blockName.isSome = true
  sectionName : r.sectionName.isSome = true

namespace ContentDb

variable (db : ContentDb) (r : ImportRow)

def blocksOf : List StoredBlock :=
  db.blocks.filter fun b => sameName (some b.blockName) r.fullBlockName

def sectionsOf : List StoredSection :=
  db.sections.filter fun s => sameName (some s.sectionName) r.fullSectionName

def variationsOf : List StoredVariation :=
  db.variations.filter fun v =>
    v.fields.key = r.fields.key && (db.sectionsOf r).any fun s => s.id = v.sectionID

/-- There is one variation for the row, in the one section of its name, which is in the one block of
its name, and this is linked to the page. -/
def Stored : Prop :=
  ∃ p ∈ db.pages, ∃ b s v, sameName p.pageCode r.pageCode = true ∧ db.blocksOf r = [b] ∧
    db.sectionsOf r = [s] ∧ db.variationsOf r = [v] ∧ ⟨p.id, b.id⟩ ∈ db.pageBlocks ∧
    s.blockID = b.id ∧ v.sectionID = s.id

end ContentDb

/-- The rows of a block agree in its page and type, those of a section in its block and type, and
everything fits its column. -/
structure Consistent (pages : List PageRow) (rows : List ImportRow) : Prop where
  pages : ∀ r ∈ rows, (∀ p ∈ pages, sameName p.pageCode r.pageCode = false) →
    r.pageCode.all (fits 50) = true
  blocks : ∀ r ∈ rows, (TempBlock.ofRow r).storable = true
  sectionNames : ∀ r ∈ rows, r.fullSectionName.all (fits 128) = true
  sectionTypes : ∀ r ∈ rows, fits 20 (TempSection.ofRow r).sectionType = true
  views : ∀ r ∈ rows, r.fields.viewName.all (fits 255) = true
  oneBlock : ∀ r ∈ rows, ∀ r' ∈ rows, sameName r.fullBlockName r'.fullBlockName = true →
    sameName r.pageCode r'.pageCode = true ∧
      textEq (r.blockType.getD defaultBlockType) (r'.blockType.getD defaultBlockType) = true
  oneSection : ∀ r ∈ rows, ∀ r' ∈ rows, sameName r.fullSectionName r'.fullSectionName = true →
    sameName r.fullBlockName r'.fullBlockName = true ∧
      textEq (r.sectionType.getD defaultSectionType)
        (r'.sectionType.getD defaultSectionType) = true

end Statement

end AciX.Import
