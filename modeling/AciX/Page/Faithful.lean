import AciX.Page.Import

/-!
# The import is faithful if the rows agree

Rows that disagree in the type of a block make two blocks of one name, and each section of the block
is then inserted twice, and each variation once for each. So the import stores each row once only if
the rows of a name agree (`import_faithful_iff`).
-/

namespace AciX.Import

open List Sql

section Names

variable {a b c : Option Text} {s t : Text} {n : ℕ}

theorem sameName_iff_of_isSome (ha : a.isSome = true) :
    sameName a b = true ↔ b.map collate = a.map collate := by
  obtain ⟨x, rfl⟩ := Option.isSome_iff_exists.1 ha
  rw [sameName, eqNull_iff]
  simp

theorem sameName_some : sameName (some s) b = true ↔ b.map collate = some (collate s) :=
  sameName_iff_of_isSome rfl

theorem sameName_congr_left (h : a.map collate = b.map collate) : sameName a c = sameName b c := by
  unfold sameName
  rw [h]

theorem sameName_congr_right (h : a.map collate = b.map collate) : sameName c a = sameName c b := by
  unfold sameName
  rw [h]

theorem sameName_comm (a b : Option Text) : sameName a b = sameName b a := by
  rw [Bool.eq_iff_iff, sameName, sameName, eqNull_iff, eqNull_iff]
  simp only [and_comm]

theorem isSome_congr (h : a.map collate = b.map collate) : a.isSome = b.isSome := by
  have hsome := congrArg Option.isSome h
  rwa [Option.isSome_map, Option.isSome_map] at hsome

theorem fits_congr (h : collate s = collate t) : fits n s = fits n t := by
  have hlength := congrArg List.length h
  simp only [collate, length_map] at hlength
  unfold fits
  rw [hlength]

theorem all_fits_congr (h : a.map collate = b.map collate) : a.all (fits n) = b.all (fits n) := by
  rcases a with _ | s <;> rcases b with _ | t
  · rfl
  · cases h
  · cases h
  · exact fits_congr (Option.some.inj h)

theorem any_fits_iff : a.any (fits n) = true ↔ a.isSome = true ∧ a.all (fits n) = true := by
  rcases a with _ | s <;> simp

theorem collate_varchar (h : fits n s = true) : collate (varchar n s) = collate s :=
  textEq_iff.1 ((textEq_varchar n s).2 (of_decide_eq_true h))

theorem collate_varchar_getD (h : a.any (fits n) = true) :
    some (collate (varchar n (a.getD []))) = a.map collate := by
  rcases a with _ | s
  · cases h
  · exact congrArg some (collate_varchar h)

theorem map_varchar (h : a.all (fits n) = true) :
    (a.map (varchar n)).map collate = a.map collate := by
  rcases a with _ | s
  · rfl
  · exact congrArg some (collate_varchar h)

namespace ImportRow.Complete

variable {r : ImportRow} (h : r.Complete)

include h

theorem fullBlockName : r.fullBlockName.isSome = true := by
  obtain ⟨page, hpage⟩ := Option.isSome_iff_exists.1 h.pageCode
  obtain ⟨block, hblock⟩ := Option.isSome_iff_exists.1 h.blockName
  simp [ImportRow.fullBlockName, hpage, hblock]

theorem fullSectionName : r.fullSectionName.isSome = true := by
  obtain ⟨block, hblock⟩ := Option.isSome_iff_exists.1 h.fullBlockName
  obtain ⟨sec, hsec⟩ := Option.isSome_iff_exists.1 h.sectionName
  simp [ImportRow.fullSectionName, hblock, hsec]

theorem valid_eq : r.valid.map collate = some (collate ['y']) := by
  have hvalid := h.valid
  rw [isValid, sameName, eqNull_iff] at hvalid
  simpa using hvalid

end ImportRow.Complete

end Names

section Blocks

variable {rows : List ImportRow} {next : ℤ} {b : StoredBlock}

theorem TempBlock.storable_congr (t t' : TempBlock) (h : t.key = t'.key) :
    t.storable = t'.storable := by
  simp only [TempBlock.key, Prod.mk.injEq] at h
  obtain ⟨-, -, hname, htype⟩ := h
  rw [Bool.eq_iff_iff, TempBlock.storable, TempBlock.storable, Bool.and_eq_true,
    Bool.and_eq_true, any_fits_iff, any_fits_iff, isSome_congr hname, all_fits_congr hname,
    fits_congr htype]

theorem mem_insertBlocks (h : b ∈ insertBlocks rows next) :
    (∀ r ∈ rows, (TempBlock.ofRow r).storable = true) ∧
      ∃ r ∈ rows, ∃ id, b = (TempBlock.ofRow r).row id := by
  obtain ⟨hall, t, ht, i, rfl⟩ := mem_insertAll TempBlock.storable_congr h
  obtain ⟨r, hr, rfl⟩ := mem_map.1 ht
  exact ⟨fun r' hr' => hall _ (mem_map_of_mem hr'), r, hr, i, rfl⟩

theorem blockName_row {t : TempBlock} (h : t.storable = true) (id : ℤ) :
    some (collate (t.row id).blockName) = t.blockName.map collate := by
  rw [TempBlock.storable, Bool.and_eq_true] at h
  exact collate_varchar_getD h.1

theorem unique_insertBlocks : Sql.Unique (fun b : StoredBlock => b.id) (insertBlocks rows next) :=
  unique_insertAll (fun _ _ => rfl) _

theorem blocks_of_name (next : ℤ) (hrows : ∀ r ∈ rows, r.Complete)
    (h : ∀ r ∈ rows, (TempBlock.ofRow r).storable = true) {r : ImportRow} (hr : r ∈ rows) :
    ((insertBlocks rows next).filter fun b =>
        sameName (some b.blockName) r.fullBlockName).length = 1 ↔
      ∀ r' ∈ rows, sameName r.fullBlockName r'.fullBlockName = true →
        (TempBlock.ofRow r').key = (TempBlock.ofRow r).key := by
  have hp : ∀ t ∈ rows.map TempBlock.ofRow, ∀ i,
      sameName (some (t.row i).blockName) r.fullBlockName =
        sameName t.blockName r.fullBlockName := by
    intro t ht i
    obtain ⟨r', hr', rfl⟩ := mem_map.1 ht
    exact sameName_congr_left (blockName_row (h r' hr') i)
  have hq : ∀ t t' : TempBlock, t.key = t'.key →
      sameName t.blockName r.fullBlockName = sameName t'.blockName r.fullBlockName := by
    intro t t' hkey
    simp only [TempBlock.key, Prod.mk.injEq] at hkey
    exact sameName_congr_left hkey.2.2.1
  have hall : ∀ t ∈ rows.map TempBlock.ofRow, t.storable = true := by
    intro t ht
    obtain ⟨r', hr', rfl⟩ := mem_map.1 ht
    exact h r' hr'
  rw [insertBlocks, tempBlocks, length_filter_insertAll_iff TempBlock.storable_congr hall hp hq]
  have hself : sameName r.fullBlockName r.fullBlockName = true :=
    (sameName_iff_of_isSome (hrows r hr).fullBlockName).2 rfl
  have hsymm : ∀ r' ∈ rows, sameName r'.fullBlockName r.fullBlockName = true ↔
      sameName r.fullBlockName r'.fullBlockName = true := by
    intro r' hr'
    rw [sameName_iff_of_isSome (hrows r hr).fullBlockName,
      sameName_iff_of_isSome (hrows r' hr').fullBlockName, eq_comm]
  refine ⟨fun hone r' hr' hname => ?_, fun hagree => ⟨?_, ?_⟩⟩
  · exact hone.2 _ (mem_map_of_mem hr') _ (mem_map_of_mem hr) ((hsymm r' hr').2 hname) hself
  · exact ⟨_, mem_map_of_mem hr, hself⟩
  · intro t ht t' ht' hname hname'
    obtain ⟨r₁, hr₁, rfl⟩ := mem_map.1 ht
    obtain ⟨r₂, hr₂, rfl⟩ := mem_map.1 ht'
    rw [hagree r₁ hr₁ ((hsymm r₁ hr₁).1 hname), hagree r₂ hr₂ ((hsymm r₂ hr₂).1 hname')]

end Blocks

section Sections

variable {rows : List ImportRow} {blocks : List StoredBlock} {next : ℤ} {r : ImportRow}

theorem NewSection.key_congr {t t' : TempSection} (h : t.key = t'.key) (b : StoredBlock) :
    NewSection.key (t, b) = NewSection.key (t', b) := by
  simp only [TempSection.key, Prod.mk.injEq] at h
  obtain ⟨hvalid, -, hname, htype⟩ := h
  rw [NewSection.key, NewSection.key, hname, htype, isValid, isValid, sameName_congr_left hvalid]

theorem NewSection.storable_congr (x y : NewSection) (h : NewSection.key x = NewSection.key y) :
    NewSection.storable x = NewSection.storable y := by
  simp only [NewSection.key, Prod.mk.injEq] at h
  obtain ⟨-, hname, htype, -⟩ := h
  rw [Bool.eq_iff_iff, NewSection.storable, NewSection.storable, Bool.and_eq_true,
    Bool.and_eq_true, any_fits_iff, any_fits_iff, isSome_congr hname, all_fits_congr hname,
    fits_congr htype]

theorem mem_selectSections {x : NewSection} (h : x ∈ selectSections rows blocks) :
    ∃ r ∈ rows, x.1 = .ofRow r ∧ x.2 ∈ blocks ∧
      sameName (some x.2.blockName) r.fullBlockName = true :=
  mem_join_distinctOn h

theorem exists_selectSections (hr : r ∈ rows) {b : StoredBlock} (hb : b ∈ blocks)
    (hname : sameName (some b.blockName) r.fullBlockName = true) :
    ∃ t, (t, b) ∈ selectSections rows blocks ∧ t.key = (TempSection.ofRow r).key := by
  refine exists_mem_join_distinctOn (fun t t' b hkey => ?_) hr hb hname
  simp only [TempSection.key, Prod.mk.injEq] at hkey
  exact sameName_congr_right hkey.2.1

theorem sectionName_row {x : NewSection} (h : NewSection.storable x = true) (id : ℤ) :
    (some (NewSection.row x id).sectionName).map collate = x.1.sectionName.map collate := by
  rw [NewSection.storable, Bool.and_eq_true] at h
  exact collate_varchar_getD h.1

theorem mem_insertSections {s : StoredSection} (h : s ∈ insertSections rows next blocks) :
    (∀ x ∈ selectSections rows blocks, NewSection.storable x = true) ∧
      ∃ x ∈ selectSections rows blocks, ∃ id, s = NewSection.row x id :=
  mem_insertAll NewSection.storable_congr h

theorem sections_of_name (h : ∀ x ∈ selectSections rows blocks, NewSection.storable x = true)
    (r : ImportRow) :
    ((insertSections rows next blocks).filter fun s =>
        sameName (some s.sectionName) r.fullSectionName).length = 1 ↔
      (∃ x ∈ selectSections rows blocks, sameName x.1.sectionName r.fullSectionName = true) ∧
        ∀ x ∈ selectSections rows blocks, ∀ y ∈ selectSections rows blocks,
          sameName x.1.sectionName r.fullSectionName = true →
            sameName y.1.sectionName r.fullSectionName = true →
              NewSection.key x = NewSection.key y := by
  refine length_filter_insertAll_iff NewSection.storable_congr h (fun x hx i => ?_)
    fun x y hkey => ?_
  · exact sameName_congr_left (sectionName_row (h x hx) i)
  · simp only [NewSection.key, Prod.mk.injEq] at hkey
    exact sameName_congr_left hkey.2.1

end Sections

section Variations

variable {rows : List ImportRow} {sections : List StoredSection} {next : ℤ} {r : ImportRow}

theorem viewName_of_key {f g : Fields} (h : f.key = g.key) :
    f.viewName.map collate = g.viewName.map collate := congrArg Fields.viewName h

theorem NewVariation.storable_congr (x y : NewVariation)
    (h : NewVariation.key x = NewVariation.key y) :
    NewVariation.storable x = NewVariation.storable y := by
  simp only [NewVariation.key, Prod.mk.injEq] at h
  exact all_fits_congr (viewName_of_key h.2.1)

theorem mem_selectVariations {x : NewVariation} (h : x ∈ selectVariations rows sections) :
    ∃ r ∈ rows, x.1 = .ofRow r ∧ x.2 ∈ sections ∧
      sameName (some x.2.sectionName) r.fullSectionName = true :=
  mem_join_distinctOn h

theorem exists_selectVariations (hr : r ∈ rows) {s : StoredSection} (hs : s ∈ sections)
    (hname : sameName (some s.sectionName) r.fullSectionName = true) :
    ∃ t, (t, s) ∈ selectVariations rows sections ∧ t.key = (TempVariation.ofRow r).key := by
  refine exists_mem_join_distinctOn (fun t t' s hkey => ?_) hr hs hname
  simp only [TempVariation.key, Prod.mk.injEq] at hkey
  exact sameName_congr_right hkey.2.1

theorem fields_row {x : NewVariation} (h : NewVariation.storable x = true) (id : ℤ) :
    (NewVariation.row x id).fields.key = x.1.fields.key := by
  have hview := map_varchar h
  simp only [NewVariation.row, Fields.key, hview]

theorem mem_insertVariations {v : StoredVariation} (h : v ∈ insertVariations rows next sections) :
    (∀ x ∈ selectVariations rows sections, NewVariation.storable x = true) ∧
      ∃ x ∈ selectVariations rows sections, ∃ id, v = NewVariation.row x id :=
  mem_insertAll NewVariation.storable_congr h

theorem variations_of_section
    (h : ∀ x ∈ selectVariations rows sections, NewVariation.storable x = true) (f : Fields)
    (s : StoredSection) :
    ((insertVariations rows next sections).filter fun v =>
        v.fields.key = f.key && s.id = v.sectionID).length = 1 ↔
      (∃ x ∈ selectVariations rows sections, x.1.fields.key = f.key ∧ s.id = x.2.id) ∧
        ∀ x ∈ selectVariations rows sections, ∀ y ∈ selectVariations rows sections,
          x.1.fields.key = f.key ∧ s.id = x.2.id → y.1.fields.key = f.key ∧ s.id = y.2.id →
            NewVariation.key x = NewVariation.key y := by
  have hp : ∀ x ∈ selectVariations rows sections, ∀ i,
      (decide ((NewVariation.row x i).fields.key = f.key) &&
        decide (s.id = (NewVariation.row x i).sectionID)) =
          (decide (x.1.fields.key = f.key) && decide (s.id = x.2.id)) := by
    intro x hx i
    rw [fields_row (h x hx)]
    rfl
  have hq : ∀ x y : NewVariation, NewVariation.key x = NewVariation.key y →
      (decide (x.1.fields.key = f.key) && decide (s.id = x.2.id)) =
        (decide (y.1.fields.key = f.key) && decide (s.id = y.2.id)) := by
    intro x y hkey
    simp only [NewVariation.key, Prod.mk.injEq] at hkey
    rw [hkey.1, hkey.2.1]
  rw [insertVariations, length_filter_insertAll_iff NewVariation.storable_congr h hp hq]
  simp only [Bool.and_eq_true, decide_eq_true_eq]

end Variations

section Pages

variable {rows : List ImportRow} {pages : List PageRow} {r : ImportRow}

theorem mem_codesWithoutPage {code : Text} (h : code ∈ codesWithoutPage rows pages) :
    ∃ r ∈ rows, r.pageCode = some code ∧ ∀ p ∈ pages, sameName p.pageCode r.pageCode = false := by
  obtain ⟨hmem, hnone⟩ := mem_filter.1 h
  obtain ⟨r, hr, hcode⟩ := mem_map.1 (mem_of_mem_distinctOn (reduceOption_mem_iff.1 hmem))
  refine ⟨r, hr, hcode, ?_⟩
  rw [hcode]
  simpa using hnone

section

variable (hr : r ∈ rows)
include hr

theorem exists_codeWithoutPage (hcode : r.pageCode.isSome = true)
    (hnone : ∀ p ∈ pages, sameName p.pageCode r.pageCode = false) :
    ∃ code ∈ codesWithoutPage rows pages, (some code).map collate = r.pageCode.map collate := by
  obtain ⟨c, hc, hkey⟩ : ∃ c ∈ tempPages rows, c.map collate = r.pageCode.map collate :=
    exists_mem_distinctOn (mem_map_of_mem hr)
  obtain ⟨code, rfl⟩ := Option.isSome_iff_exists.1 ((isSome_congr hkey).trans hcode)
  refine ⟨code, mem_filter.2 ⟨reduceOption_mem_iff.2 hc, ?_⟩, hkey⟩
  rw [Bool.not_eq_true', any_eq_false]
  intro p hp
  rw [sameName_congr_right hkey, hnone p hp]
  exact Bool.false_ne_true

theorem fits_of_mem_insertPages (hcode : r.pageCode.isSome = true)
    (hnone : ∀ p ∈ pages, sameName p.pageCode r.pageCode = false) {p : PageRow}
    (hp : p ∈ insertPages rows pages) (hname : sameName p.pageCode r.pageCode = true) :
    r.pageCode.all (fits 50) = true := by
  rcases mem_append.1 hp with hp | hp
  · rw [hnone p hp] at hname
    cases hname
  · obtain ⟨hall, -⟩ := mem_insertAll (fun _ _ => fits_congr) hp
    obtain ⟨code, hmem, hkey⟩ := exists_codeWithoutPage hr hcode hnone
    rw [← all_fits_congr hkey]
    exact hall code hmem

theorem exists_page (hcode : r.pageCode.isSome = true)
    (h : ∀ r ∈ rows, (∀ p ∈ pages, sameName p.pageCode r.pageCode = false) →
      r.pageCode.all (fits 50) = true) :
    ∃ p ∈ insertPages rows pages, sameName p.pageCode r.pageCode = true := by
  by_cases hnone : ∀ p ∈ pages, sameName p.pageCode r.pageCode = false
  · have hall : ∀ code ∈ codesWithoutPage rows pages, fits 50 code = true := by
      intro code hmem
      obtain ⟨r', hr', heq, hnone'⟩ := mem_codesWithoutPage hmem
      have hfits := h r' hr' hnone'
      rw [heq] at hfits
      exact hfits
    obtain ⟨code, hmem, hkey⟩ := exists_codeWithoutPage hr hcode hnone
    obtain ⟨code', hmem', hkey', i, hi⟩ :
        ∃ a' ∈ codesWithoutPage rows pages, collate a' = collate code ∧ ∃ i,
          newPage a' i ∈ insertAll (fits 50) newPage
            (1 + maxFrom 0 (pages.map (·.id))) (newPages rows pages) :=
      exists_mem_insertAll (fun _ _ => fits_congr) hall hmem
    refine ⟨_, mem_append_right _ hi, sameName_some.2 ?_⟩
    rw [collate_varchar (hall code' hmem'), hkey', ← hkey]
    rfl
  · push Not at hnone
    obtain ⟨p, hp, hname⟩ := hnone
    exact ⟨p, mem_append_left _ hp, by simpa using hname⟩

theorem mem_insertPageBlocks {blocks : List StoredBlock} {p : PageRow}
    (hp : p ∈ pages) (hpage : sameName p.pageCode r.pageCode = true) {b : StoredBlock}
    (hb : b ∈ blocks) (hname : sameName (some b.blockName) r.fullBlockName = true) :
    ⟨p.id, b.id⟩ ∈ insertPageBlocks rows pages blocks := by
  obtain ⟨t, ht, hkey⟩ : ∃ t ∈ tempBlocks rows, t.key = (TempBlock.ofRow r).key :=
    exists_mem_distinctOn (mem_map_of_mem hr)
  simp only [TempBlock.key, Prod.mk.injEq] at hkey
  have hcode : sameName t.pageCode p.pageCode = true := by
    rw [sameName_congr_left hkey.2.1, sameName_comm]
    exact hpage
  have hjoin : sameName (some b.blockName) t.blockName = true := by
    rw [sameName_congr_right hkey.2.2.1]
    exact hname
  have hmem : ((p, t), b) ∈ join (fun x b => sameName (some b.blockName) x.2.blockName)
      (join (fun p t => sameName t.pageCode p.pageCode) pages (tempBlocks rows)) blocks :=
    mem_join.2 ⟨mem_join.2 ⟨hp, ht, hcode⟩, hb, hjoin⟩
  obtain ⟨x, hx, hid⟩ : ∃ x ∈ insertPageBlocks rows pages blocks, id x = ⟨p.id, b.id⟩ :=
    exists_mem_distinctOn (mem_map_of_mem hmem)
  exact hid ▸ hx

end

end Pages

section Faithful

variable {rows : List ImportRow} {db : ContentDb} {pages : List PageRow} {r : ImportRow}

theorem blockKey_eq {r r' : ImportRow} (hr : r.Complete) (hr' : r'.Complete)
    (hname : sameName r.fullBlockName r'.fullBlockName = true) :
    (TempBlock.ofRow r').key = (TempBlock.ofRow r).key ↔
      sameName r.pageCode r'.pageCode = true ∧ textEq (r.blockType.getD defaultBlockType)
        (r'.blockType.getD defaultBlockType) = true := by
  rw [sameName_iff_of_isSome hr.fullBlockName] at hname
  simp only [TempBlock.key, TempBlock.ofRow, Prod.mk.injEq, hr.valid_eq, hr'.valid_eq, hname,
    true_and]
  rw [sameName_iff_of_isSome hr.pageCode, textEq_iff, eq_comm (b := collate _)]

theorem storable_ofRow (hr : r.Complete) (b : StoredBlock) :
    NewSection.storable (.ofRow r, b) = true ↔
      r.fullSectionName.all (fits 128) = true ∧
        fits 20 (TempSection.ofRow r).sectionType = true := by
  rw [NewSection.storable, Bool.and_eq_true, any_fits_iff]
  simp only [TempSection.ofRow, hr.fullSectionName, true_and]

section

variable (hrows : ∀ r ∈ rows, r.Complete)
include hrows

theorem exists_section (h : Consistent pages rows)
    (hr : r ∈ rows) {blocks : List StoredBlock} {b : StoredBlock}
    (hb : blocks.filter (fun b => sameName (some b.blockName) r.fullBlockName) = [b]) (next : ℤ) :
    ∃ s, (insertSections rows next blocks).filter (fun s =>
      sameName (some s.sectionName) r.fullSectionName) = [s] ∧ s.blockID = b.id := by
  have hstorable : ∀ x ∈ selectSections rows blocks, NewSection.storable x = true := by
    intro x hx
    obtain ⟨r', hr', heq, -⟩ := mem_selectSections hx
    obtain ⟨t, b'⟩ := x
    obtain rfl : t = .ofRow r' := heq
    exact (storable_ofRow (hrows r' hr') b').2 ⟨h.sectionNames r' hr', h.sectionTypes r' hr'⟩
  have hkey : ∀ x ∈ selectSections rows blocks,
      sameName x.1.sectionName r.fullSectionName = true → NewSection.key x =
        (b.id, r.fullSectionName.map collate, collate (TempSection.ofRow r).sectionType, true) := by
    intro x hx hname
    obtain ⟨r', hr', heq, hmem, hblock⟩ := mem_selectSections hx
    rw [heq, sameName_comm] at hname
    obtain ⟨hsame, htype⟩ := h.oneSection r hr r' hr' hname
    rw [sameName_iff_of_isSome (hrows r hr).fullSectionName] at hname
    rw [sameName_iff_of_isSome (hrows r hr).fullBlockName] at hsame
    rw [sameName_congr_right hsame] at hblock
    have hx2 : x.2 ∈ blocks.filter fun b => sameName (some b.blockName) r.fullBlockName :=
      mem_filter.2 ⟨hmem, hblock⟩
    rw [hb, mem_singleton] at hx2
    rw [NewSection.key, hx2, heq]
    simp only [TempSection.ofRow, Prod.mk.injEq, true_and]
    exact ⟨hname, (textEq_iff.1 htype).symm, (hrows r' hr').valid⟩
  obtain ⟨hbmem, hbname⟩ : b ∈ blocks ∧ sameName (some b.blockName) r.fullBlockName = true :=
    mem_filter.1 (hb ▸ mem_singleton_self b)
  obtain ⟨t, ht, htkey⟩ := exists_selectSections hr hbmem hbname
  have htname : sameName t.sectionName r.fullSectionName = true := by
    simp only [TempSection.key, Prod.mk.injEq] at htkey
    rw [sameName_congr_left htkey.2.2.1]
    exact (sameName_iff_of_isSome (hrows r hr).fullSectionName).2 rfl
  obtain ⟨s, hs⟩ := length_eq_one_iff.1 ((sections_of_name hstorable r).2
    ⟨⟨_, ht, htname⟩, fun x hx y hy hnx hny => (hkey x hx hnx).trans (hkey y hy hny).symm⟩)
  refine ⟨s, hs, ?_⟩
  obtain ⟨hsmem, hsname⟩ : s ∈ insertSections rows next blocks ∧
      sameName (some s.sectionName) r.fullSectionName = true :=
    mem_filter.1 (hs ▸ mem_singleton_self s)
  obtain ⟨-, x, hx, i, rfl⟩ := mem_insertSections hsmem
  have hxname : sameName x.1.sectionName r.fullSectionName = true := by
    rw [← sameName_congr_left (sectionName_row (hstorable x hx) i)]
    exact hsname
  exact (Prod.mk.inj (hkey x hx hxname)).1

theorem exists_variation
    (hviews : ∀ r ∈ rows, r.fields.viewName.all (fits 255) = true) (hr : r ∈ rows)
    {sections : List StoredSection} {s : StoredSection}
    (hs : sections.filter (fun s => sameName (some s.sectionName) r.fullSectionName) = [s])
    (next : ℤ) : ((insertVariations rows next sections).filter fun v =>
      v.fields.key = r.fields.key && s.id = v.sectionID).length = 1 := by
  have hstorable : ∀ x ∈ selectVariations rows sections, NewVariation.storable x = true := by
    intro x hx
    obtain ⟨r', hr', heq, -⟩ := mem_selectVariations hx
    rw [NewVariation.storable, heq]
    exact hviews r' hr'
  have hkey : ∀ x ∈ selectVariations rows sections,
      x.1.fields.key = r.fields.key ∧ s.id = x.2.id →
        NewVariation.key x = (s.id, r.fields.key, true) := by
    intro x hx hsame
    obtain ⟨r', hr', heq, -⟩ := mem_selectVariations hx
    have hvalid : isValid x.1.valid = true := by
      rw [heq]
      exact (hrows r' hr').valid
    rw [NewVariation.key, hsame.1, hsame.2, hvalid]
  obtain ⟨hsmem, hsname⟩ : s ∈ sections ∧ sameName (some s.sectionName) r.fullSectionName = true :=
    mem_filter.1 (hs ▸ mem_singleton_self s)
  obtain ⟨t, ht, htkey⟩ := exists_selectVariations hr hsmem hsname
  simp only [TempVariation.key, Prod.mk.injEq] at htkey
  refine (variations_of_section hstorable r.fields s).2 ⟨⟨_, ht, htkey.2.2, rfl⟩, ?_⟩
  exact fun x hx y hy hsx hsy => (hkey x hx hsx).trans (hkey y hy hsy).symm

theorem stored_of_consistent (h : Consistent db.pages rows)
    (hr : r ∈ rows) : (spVariationImport rows db).Stored r := by
  obtain ⟨p, hp, hpage⟩ := exists_page hr (hrows r hr).pageCode h.pages
  obtain ⟨b, hb⟩ := length_eq_one_iff.1 <|
    (blocks_of_name (1 + maxFrom 0 (db.blocks.map (·.id))) hrows h.blocks hr).2
      fun r' hr' hname => (blockKey_eq (hrows r hr) (hrows r' hr') hname).2
        (h.oneBlock r hr r' hr' hname)
  obtain ⟨hbmem, hbname⟩ := mem_filter.1 (hb ▸ mem_singleton_self b)
  obtain ⟨s, hs, hblock⟩ := exists_section hrows h hr hb (1 + maxFrom 0 (db.sections.map (·.id)))
  obtain ⟨v, hv⟩ := length_eq_one_iff.1 (exists_variation hrows h.views hr hs
    (1 + maxFrom 0 (db.variations.map (·.id))))
  obtain ⟨-, hvsame⟩ := mem_filter.1 (hv ▸ mem_singleton_self v)
  rw [Bool.and_eq_true, decide_eq_true_eq, decide_eq_true_eq] at hvsame
  refine ⟨p, hp, b, s, v, hpage, hb, hs, ?_, mem_insertPageBlocks hr hp hpage hbmem hbname,
    hblock, hvsame.2.symm⟩
  have hsections : (spVariationImport rows db).sectionsOf r = [s] := hs
  unfold ContentDb.variationsOf
  rw [hsections]
  simp only [any_cons, any_nil, Bool.or_false]
  exact hv

end

namespace ContentDb.Stored

variable {r r' : ImportRow}

theorem exists_block (h : db.Stored r) :
    ∃ b ∈ db.blocks, sameName (some b.blockName) r.fullBlockName = true := by
  obtain ⟨p, -, b, s, v, -, hb, -⟩ := h
  exact ⟨b, mem_filter.1 (hb ▸ mem_singleton_self b)⟩

theorem exists_section (h : db.Stored r) :
    ∃ s ∈ db.sections, sameName (some s.sectionName) r.fullSectionName = true := by
  obtain ⟨p, -, b, s, v, -, -, hs, -⟩ := h
  exact ⟨s, mem_filter.1 (hs ▸ mem_singleton_self s)⟩

theorem exists_variation (h : db.Stored r) : ∃ v, v ∈ db.variations := by
  obtain ⟨p, -, b, s, v, -, -, -, hv, -⟩ := h
  exact ⟨v, (mem_filter.1 (hv ▸ mem_singleton_self v)).1⟩

section

variable (h : (spVariationImport rows db).Stored r)
include h

theorem exists_selected (hr : r ∈ rows) :
    ∃ t, ∃ b ∈ (spVariationImport rows db).blocks,
      (t, b) ∈ selectSections rows (spVariationImport rows db).blocks ∧
        t.key = (TempSection.ofRow r).key ∧ sameName (some b.blockName) r.fullBlockName = true := by
  obtain ⟨b, hb, hname⟩ := h.exists_block
  obtain ⟨t, ht, hkey⟩ := exists_selectSections hr hb hname
  exact ⟨t, b, hb, ht, hkey, hname⟩

theorem storable_blocks :
    ∀ r ∈ rows, (TempBlock.ofRow r).storable = true := by
  obtain ⟨b, hb, -⟩ := h.exists_block
  exact (mem_insertBlocks hb).1

theorem storable_sections :
    ∀ x ∈ selectSections rows (spVariationImport rows db).blocks, NewSection.storable x = true := by
  obtain ⟨s, hs, -⟩ := h.exists_section
  exact (mem_insertSections hs).1

theorem storable_variations :
    ∀ x ∈ selectVariations rows (spVariationImport rows db).sections,
      NewVariation.storable x = true := by
  obtain ⟨v, hv⟩ := h.exists_variation
  exact (mem_insertVariations hv).1

theorem section_fits (hr : r ∈ rows)
    (hcomplete : r.Complete) :
    r.fullSectionName.all (fits 128) = true ∧ fits 20 (TempSection.ofRow r).sectionType = true := by
  obtain ⟨t, b, -, ht, hkey, -⟩ := h.exists_selected hr
  rw [← storable_ofRow hcomplete b, ← NewSection.storable_congr _ _ (NewSection.key_congr hkey b)]
  exact h.storable_sections _ ht

theorem view_fits (hr : r ∈ rows) :
    r.fields.viewName.all (fits 255) = true := by
  obtain ⟨s, hs, hname⟩ := h.exists_section
  obtain ⟨t, ht, hkey⟩ := exists_selectVariations hr hs hname
  simp only [TempVariation.key, Prod.mk.injEq] at hkey
  have hview := h.storable_variations _ ht
  rw [NewVariation.storable, all_fits_congr (viewName_of_key hkey.2.2)] at hview
  exact hview

theorem page_fits (hr : r ∈ rows)
    (hcomplete : r.Complete) (hnone : ∀ p ∈ db.pages, sameName p.pageCode r.pageCode = false) :
    r.pageCode.all (fits 50) = true := by
  obtain ⟨p, hp, b, s, v, hpage, -⟩ := h
  exact fits_of_mem_insertPages hr hcomplete.pageCode hnone hp hpage

end

theorem block_agrees (hrows : ∀ r ∈ rows, r.Complete) (h : (spVariationImport rows db).Stored r)
    (hr : r ∈ rows) (hr' : r' ∈ rows)
    (hname : sameName r.fullBlockName r'.fullBlockName = true) :
    (TempBlock.ofRow r').key = (TempBlock.ofRow r).key := by
  have hstorable := h.storable_blocks
  obtain ⟨p, -, b, s, v, -, hb, -⟩ := h
  have hone : ((spVariationImport rows db).blocksOf r).length = 1 := by rw [hb]; rfl
  exact (blocks_of_name _ hrows hstorable hr).1 hone r' hr' hname

theorem section_agrees (hrows : ∀ r ∈ rows, r.Complete) (hr : r ∈ rows) (hr' : r' ∈ rows)
    (h : (spVariationImport rows db).Stored r) (h' : (spVariationImport rows db).Stored r')
    (hname : sameName r.fullSectionName r'.fullSectionName = true) :
    sameName r.fullBlockName r'.fullBlockName = true ∧
      textEq (r.sectionType.getD defaultSectionType)
        (r'.sectionType.getD defaultSectionType) = true := by
  obtain ⟨t, b, hb, ht, hkey, hblock⟩ := h.exists_selected hr
  obtain ⟨t', b', hb', ht', hkey', hblock'⟩ := h'.exists_selected hr'
  have hstorable := h.storable_sections
  obtain ⟨p, -, b₁, s, v, -, -, hs, -⟩ := h
  have hone : ((spVariationImport rows db).sectionsOf r).length = 1 := by rw [hs]; rfl
  have hagree := ((sections_of_name hstorable r).1 hone).2 _ ht _ ht'
  simp only [TempSection.key, TempSection.ofRow, Prod.mk.injEq] at hkey hkey'
  rw [sameName_congr_left hkey.2.2.1, sameName_congr_left hkey'.2.2.1,
    sameName_comm r'.fullSectionName] at hagree
  have hsame := hagree ((sameName_iff_of_isSome (hrows r hr).fullSectionName).2 rfl) hname
  simp only [NewSection.key, Prod.mk.injEq] at hsame
  obtain rfl := unique_insertBlocks.eq hb hb' hsame.1
  rw [sameName_some] at hblock hblock'
  refine ⟨(sameName_iff_of_isSome (hrows r hr).fullBlockName).2 (hblock'.trans hblock.symm), ?_⟩
  rw [textEq_iff, ← hkey.2.2.2, ← hkey'.2.2.2]
  exact hsame.2.2.1

end ContentDb.Stored

theorem consistent_of_stored (hrows : ∀ r ∈ rows, r.Complete)
    (h : ∀ r ∈ rows, (spVariationImport rows db).Stored r) : Consistent db.pages rows where
  pages r hr hnone := (h r hr).page_fits hr (hrows r hr) hnone
  blocks r hr := (h r hr).storable_blocks r hr
  sectionNames r hr := ((h r hr).section_fits hr (hrows r hr)).1
  sectionTypes r hr := ((h r hr).section_fits hr (hrows r hr)).2
  views r hr := (h r hr).view_fits hr
  oneBlock r hr r' hr' hname := (blockKey_eq (hrows r hr) (hrows r' hr') hname).1
    ((h r hr).block_agrees hrows hr hr' hname)
  oneSection r hr r' hr' hname :=
    ContentDb.Stored.section_agrees hrows hr hr' (h r hr) (h r' hr') hname

/-- The import stores each row once iff the rows agree. -/
theorem import_faithful_iff (hrows : ∀ r ∈ rows, r.Complete) :
    (∀ r ∈ rows, (spVariationImport rows db).Stored r) ↔ Consistent db.pages rows :=
  ⟨consistent_of_stored hrows, fun h _ hr => stored_of_consistent hrows h hr⟩

end Faithful

def homeRow (blockType : Option Text) : ImportRow where
  valid := some ['y']
  pageCode := some ['P']
  blockName := some ['B']
  blockType := blockType
  sectionName := some ['S']

theorem homeRow_complete (blockType : Option Text) : (homeRow blockType).Complete :=
  ⟨rfl, rfl, rfl, rfl⟩

def twoTypes : List ImportRow := [homeRow none, homeRow (some ['l'])]

theorem twoTypes_not_faithful : (∀ r ∈ twoTypes, r.Complete) ∧
    ¬ ∀ r ∈ twoTypes, (spVariationImport twoTypes {}).Stored r := by
  refine ⟨fun r hr => ?_, fun h => ?_⟩
  · rcases mem_pair.1 hr with rfl | rfl <;> exact homeRow_complete _
  · obtain ⟨p, -, b, s, v, -, hb, -⟩ := h _ mem_cons_self
    have hlength : ((spVariationImport twoTypes {}).blocksOf (homeRow none)).length = 2 := by
      decide
    rw [hb] at hlength
    cases hlength

/-- The same block with a second section. -/
def twoSections : List ImportRow := [homeRow none, { homeRow none with sectionName := some ['T'] }]

theorem homeRow_faithful : (∀ r ∈ twoSections, r.Complete) ∧
    ∀ r ∈ twoSections, (spVariationImport twoSections {}).Stored r := by
  have hrows : ∀ r ∈ twoSections, r.Complete := by
    intro r hr
    rcases mem_pair.1 hr with rfl | rfl
    · exact homeRow_complete none
    · exact ⟨rfl, rfl, rfl, rfl⟩
  refine ⟨hrows, (import_faithful_iff hrows).2 ?_⟩
  exact ⟨by decide, by decide, by decide, by decide, by decide, by decide, by decide⟩

end AciX.Import
