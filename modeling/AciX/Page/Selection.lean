import AciX.Page.Content
import AciX.Except
import AciX.Sql.Rank

/-!
# Which variation is selected

`spPageGetContent` numbers the enabled variations of each section, counts them and takes the one
whose number is the hash of the names and the clause, modulo the count. If the hash can be computed,
each section gets one variation (`selected_of_hash`). The hash is `ABS` of a 32-bit number, which
fails for the least one, and the page's code is cut to 30 characters (`one_per_section_iff`).
-/

namespace AciX

open List Sql

structure Db.PageKeys (db : Db) : Prop where
  pageCodes : Sql.Unique (fun p : PageRow => p.pageCode.map collate) db.pages
  pageBlocks : Sql.Unique (fun pb : PageBlockRow => (pb.pageID, pb.blockID)) db.pageBlocks
  blocks : Sql.Unique (fun b : BlockRow => b.id) db.blocks
  sections : Sql.Unique (fun s : SectionRow => s.id) db.sections
  variations : Sql.Unique (fun v : VariationRow => v.id) db.variations

namespace Db

variable (db : Db)

def enabledIn (sectionID : ℤ) : Finset VariationRow :=
  (db.variations.filter fun v => v.sectionID = sectionID && v.isEnabled).toFinset

/-- The page of the code has the enabled section in an enabled block, with an enabled variation. -/
structure Shows (code : Text) (b : BlockRow) (s : SectionRow) : Prop where
  page : ∃ p ∈ db.pages, p.pageCode.any (textEq · code) = true ∧
    ⟨p.id, b.id⟩ ∈ db.pageBlocks
  block : b ∈ db.blocks
  blockEnabled : b.isEnabled = true
  mem : s ∈ db.sections
  blockID : s.blockID = b.id
  isEnabled : s.isEnabled = true
  variation : (db.enabledIn s.id).Nonempty

def counts (code : Text) : List VariationCount :=
  (db.pages.filter fun p => p.pageCode.any (textEq · code)).flatMap fun p =>
    (db.pageBlocks.filter (·.pageID = p.id)).flatMap fun pb =>
      db.xvVariationCounts.filter (·.blockID = pb.blockID)

end Db

def chosen (hash : ℤ) (E : Finset VariationRow) : Finset VariationRow :=
  E.filter fun v => Sql.rank (fun v : VariationRow => v.id) E v = hash.natAbs % E.card

/-- The procedure does not fail. For each section of the page it selects one variation, which the
hash of the names and the clause chooses among the enabled ones, and it selects nothing else. -/
def OnePerSection (db : Db) (env : ContentEnv) (pageCode whereClause : Text) : Prop :=
  ∃ selected batch, db.spPageGetContent env pageCode whereClause = .ok (selected, batch) ∧
    (∀ v ∈ selected, ∃ b s, db.Shows (env.encode pageCode) b s ∧ v ∈ db.enabledIn s.id) ∧
    ∀ b s, db.Shows (env.encode pageCode) b s →
      ∃ v, selected.filter (fun v => v.sectionID = s.id) = [v] ∧
        chosen (env.sha1 (b.blockName ++ s.sectionName ++ whereClause)) (db.enabledIn s.id) = {v}

namespace Db

section Counts

variable {db : Db} {code : Text}

theorem mem_enabledIn {v : VariationRow} {sectionID : ℤ} :
    v ∈ db.enabledIn sectionID ↔
      v ∈ db.variations ∧ v.sectionID = sectionID ∧ v.isEnabled = true := by
  simp [enabledIn]

section

variable (h : db.PageKeys)
include h

theorem card_enabledIn (sectionID : ℤ) :
    (db.enabledIn sectionID).card =
      (db.variations.filter fun v => v.sectionID = sectionID && v.isEnabled).length :=
  toFinset_card_of_nodup (h.variations.nodup.filter _)

theorem mem_xvVariationCounts {x : VariationCount} :
    x ∈ db.xvVariationCounts ↔ ∃ b ∈ db.blocks, ∃ s ∈ db.sections, s.blockID = b.id ∧
      b.isEnabled = true ∧ s.isEnabled = true ∧ (db.enabledIn s.id).Nonempty ∧
      x = ⟨b.id, s.id, b.blockName, s.sectionName, (db.enabledIn s.id).card⟩ := by
  unfold xvVariationCounts
  rw [mem_filterMap]
  constructor
  · rintro ⟨⟨b, s⟩, hjoin, hx⟩
    obtain ⟨hb, hs, hon⟩ := mem_join.1 hjoin
    simp only [← card_enabledIn h] at hx
    split_ifs at hx with hcond
    simp only [Bool.and_eq_true, decide_eq_true_eq] at hcond
    cases hx
    refine ⟨b, hb, s, hs, ?_, hcond.1.1, hcond.1.2, Finset.card_ne_zero.1 hcond.2, rfl⟩
    simpa [eq_comm] using hon
  · rintro ⟨b, hb, s, hs, hid, hbe, hse, hne, rfl⟩
    refine ⟨(b, s), mem_join.2 ⟨hb, hs, by simp [hid]⟩, ?_⟩
    simp only [← card_enabledIn h]
    rw [if_pos (by simp [hbe, hse, Finset.card_ne_zero.2 hne])]

theorem mem_counts {x : VariationCount} :
    x ∈ db.counts code ↔ ∃ b s, db.Shows code b s ∧
      x = ⟨b.id, s.id, b.blockName, s.sectionName, (db.enabledIn s.id).card⟩ := by
  simp only [counts, mem_flatMap, mem_filter, decide_eq_true_eq, mem_xvVariationCounts h]
  constructor
  · rintro ⟨p, ⟨hp, hcode⟩, pb, ⟨hpb, hpage⟩, ⟨b, hb, s, hs, hid, hbe, hse, hne, rfl⟩, hblock⟩
    refine ⟨b, s, ⟨⟨p, hp, hcode, ?_⟩, hb, hbe, hs, hid, hse, hne⟩, rfl⟩
    rw [← hpage, show b.id = pb.blockID from hblock]
    exact hpb
  · rintro ⟨b, s, ⟨⟨p, hp, hcode, hpb⟩, hb, hbe, hs, hid, hse, hne⟩, rfl⟩
    exact ⟨p, ⟨hp, hcode⟩, _, ⟨hpb, rfl⟩, ⟨b, hb, s, hs, hid, hbe, hse, hne, rfl⟩, rfl⟩

theorem unique_xvVariationCounts :
    Sql.Unique (fun x : VariationCount => x.sectionID) db.xvVariationCounts := by
  have hjoin : Sql.Unique (fun j : BlockRow × SectionRow => j.2.id)
      (join (fun b s => b.id = s.blockID) db.blocks db.sections) := by
    refine Sql.Unique.flatMap (fun b _ => ?_) (h.blocks.pairwise.imp fun hne x hx y hy he => hne ?_)
    · unfold Sql.Unique
      rw [map_map]
      exact h.sections.filter _
    · obtain ⟨s, hs, rfl⟩ := mem_map.1 hx
      obtain ⟨s', hs', rfl⟩ := mem_map.1 hy
      simp only [mem_filter, decide_eq_true_eq] at hs hs'
      rw [hs.2, hs'.2, h.sections.eq hs.1 hs'.1 he]
  refine Sql.Unique.filterMap ?_ hjoin
  rintro ⟨b, s⟩ x hx
  simp only at hx
  split_ifs at hx
  cases hx
  rfl

theorem unique_counts :
    Sql.Unique (fun x : VariationCount => x.sectionID) (db.counts code) := by
  refine Sql.Unique.flatMap (fun p _ => ?_) ?_
  · refine Sql.Unique.flatMap (fun pb _ => (unique_xvVariationCounts h).filter _) ?_
    have hblocks : (db.pageBlocks.filter fun pb => pb.pageID = p.id).Pairwise fun pb pb' =>
        pb.blockID ≠ pb'.blockID := by
      refine (h.pageBlocks.filter _).pairwise.imp_of_mem fun {pb pb'} hpb hpb' hne he => hne ?_
      simp only [mem_filter, decide_eq_true_eq] at hpb hpb'
      rw [hpb.2, hpb'.2, he]
    refine hblocks.imp fun {pb pb'} hne x hx y hy he => hne ?_
    simp only [mem_filter, decide_eq_true_eq] at hx hy
    rw [← hx.2, ← hy.2, (unique_xvVariationCounts h).eq hx.1 hy.1 he]
  · -- there is at most one page of the code
    refine (h.pageCodes.filter _).pairwise.imp_of_mem fun {p p'} hp hp' hne => absurd ?_ hne
    obtain ⟨c, hc, hcode⟩ := (Option.any_eq_true _ _).1 (mem_filter.1 hp).2
    obtain ⟨c', hc', hcode'⟩ := (Option.any_eq_true _ _).1 (mem_filter.1 hp').2
    rw [hc, hc', Option.map_some, Option.map_some, textEq_iff.1 hcode, textEq_iff.1 hcode']

theorem Shows.eq {code' : Text} {b b' : BlockRow} {s s' : SectionRow}
    (hs : db.Shows code b s) (hs' : db.Shows code' b' s') (hid : s.id = s'.id) :
    b = b' ∧ s = s' := by
  obtain rfl := h.sections.eq hs.mem hs'.mem hid
  exact ⟨h.blocks.eq hs.block hs'.block (hs.blockID.symm.trans hs'.blockID), rfl⟩

end

end Counts

section Index

variable {db : Db} {env : ContentEnv} {pageCode whereClause : Text}

def indexOf (env : ContentEnv) (whereClause : Text) (x : VariationCount) : ℤ × ℕ :=
  (x.sectionID,
    (env.sha1 (x.blockName ++ x.sectionName ++ whereClause)).natAbs % x.variationCount)

def HashesOk (db : Db) (env : ContentEnv) (code whereClause : Text) : Prop :=
  ∀ b s, db.Shows code b s → env.sha1 (b.blockName ++ s.sectionName ++ whereClause) ≠ -2147483648

theorem variationIndex_eq (db : Db) (env : ContentEnv) (pageCode whereClause : Text) :
    db.variationIndex env pageCode whereClause =
      (db.counts (varchar 30 (env.encode pageCode))).mapM fun x =>
        (env.fnHashModString x.variationCount (x.blockName ++ x.sectionName ++ whereClause)).map
          (x.sectionID, ·) := rfl

theorem variationIndex_ok (h : db.PageKeys)
    (hhash : db.HashesOk env (varchar 30 (env.encode pageCode)) whereClause) :
    db.variationIndex env pageCode whereClause =
      .ok ((db.counts (varchar 30 (env.encode pageCode))).map (indexOf env whereClause)) := by
  rw [variationIndex_eq, mapM_ok_iff, List.forall₂_map_right_iff, List.forall₂_same]
  intro x hx
  obtain ⟨b, s, hs, rfl⟩ := (mem_counts h).1 hx
  rw [ContentEnv.fnHashModString, if_neg (hhash b s hs)]
  rfl

theorem hashesOk_of_ok (h : db.PageKeys) {index : List (ℤ × ℕ)}
    (hok : db.variationIndex env pageCode whereClause = .ok index) :
    db.HashesOk env (varchar 30 (env.encode pageCode)) whereClause := by
  intro b s hs hleast
  rw [variationIndex_eq] at hok
  obtain ⟨i, hi⟩ := exists_mapM_ok_iff.1 ⟨index, hok⟩ _ ((mem_counts h).2 ⟨b, s, hs, rfl⟩)
  rw [ContentEnv.fnHashModString, if_pos hleast] at hi
  cases hi

end Index

section Selected

variable {db : Db} {index : List (ℤ × ℕ)} {v : VariationRow}

/-- The enabled variations of the sections in the index, in the order they are numbered in. -/
def indexed (db : Db) (index : List (ℤ × ℕ)) : List VariationRow :=
  ((join (fun v i => i.1 = v.sectionID) (db.variations.filter (·.isEnabled))
    index).map Prod.fst).insertionSort (·.id ≤ ·.id)

theorem perm_indexed (hindex : Sql.Unique Prod.fst index) :
    (db.indexed index).Perm ((db.variations.filter (·.isEnabled)).filter fun v =>
      index.any fun i => i.1 = v.sectionID) := by
  refine (perm_insertionSort _ _).trans ?_
  rw [map_fst_join _ hindex]
  intro v i hi j hj hvi hvj
  simp only [decide_eq_true_eq] at hvi hvj
  rw [hvi, hvj]

theorem mem_indexed (hindex : Sql.Unique Prod.fst index) : v ∈ db.indexed index ↔
    v ∈ db.enabledIn v.sectionID ∧ ∃ i ∈ index, i.1 = v.sectionID := by
  rw [(perm_indexed hindex).mem_iff, mem_enabledIn, mem_filter, mem_filter, any_eq_true]
  simp only [decide_eq_true_eq, true_and]

section

variable (h : db.PageKeys)
include h

theorem sorted_indexed (hindex : Sql.Unique Prod.fst index) :
    (db.indexed index).Pairwise fun v w : VariationRow => v.id < w.id := by
  have hsorted : (db.indexed index).Pairwise fun v w : VariationRow => v.id ≤ w.id := by
    have htotal : Std.Total fun v w : VariationRow => v.id ≤ w.id := ⟨fun v w => le_total _ _⟩
    have htrans : IsTrans VariationRow fun v w => v.id ≤ w.id := ⟨fun _ _ _ => le_trans⟩
    exact pairwise_insertionSort _ _
  have hne : Sql.Unique (fun v : VariationRow => v.id) (db.indexed index) := by
    have hperm := (show (db.indexed index).Perm _ from perm_indexed hindex).map
      fun v : VariationRow => v.id
    exact hperm.nodup_iff.2 ((h.variations.filter _).filter _)
  exact (hsorted.and hne.pairwise).imp fun hle => lt_of_le_of_ne hle.1 hle.2

theorem mem_numberedVariations (hindex : Sql.Unique Prod.fst index) {n : ℕ} :
    (v, n) ∈ db.numberedVariations index ↔ v ∈ db.indexed index ∧
      n = Sql.rank (fun v : VariationRow => v.id) (db.enabledIn v.sectionID) v := by
  have hpart : v ∈ db.indexed index →
      ((db.indexed index).filter fun w => w.sectionID = v.sectionID).toFinset =
        db.enabledIn v.sectionID := by
    intro hv
    obtain ⟨-, i, hi, hsec⟩ := (mem_indexed hindex).1 hv
    ext w
    rw [mem_toFinset, mem_filter, mem_indexed hindex, decide_eq_true_eq]
    constructor
    · rintro ⟨⟨hw, -⟩, hws⟩
      rwa [hws] at hw
    · intro hw
      have hws := (mem_enabledIn.1 hw).2.1
      refine ⟨⟨?_, i, hi, hsec.trans hws.symm⟩, hws⟩
      rwa [hws]
  have hnumber : ∀ i, (v, i) ∈ (db.indexed index).zipIdx →
      (((db.indexed index).take i).filter fun w => w.sectionID = v.sectionID).length =
        Sql.rank (fun v : VariationRow => v.id) (db.enabledIn v.sectionID) v := by
    intro i hi
    rw [← hpart (fst_mem_of_mem_zipIdx hi)]
    exact length_take_filter (fun v : VariationRow => v.id) (sorted_indexed h hindex) hi _
  show (v, n) ∈ (db.indexed index).zipIdx.map _ ↔ _
  rw [mem_map]
  constructor
  · rintro ⟨⟨w, i⟩, hi, heq⟩
    cases heq
    exact ⟨fst_mem_of_mem_zipIdx hi, hnumber i hi⟩
  · rintro ⟨hv, rfl⟩
    obtain ⟨i, hi, hvi⟩ := getElem_of_mem hv
    have hmem : (v, i) ∈ (db.indexed index).zipIdx := by
      rw [mem_zipIdx_iff_getElem?, getElem?_eq_getElem hi, hvi]
    exact ⟨(v, i), hmem, Prod.ext rfl (hnumber i hmem)⟩

theorem mem_selected (hindex : Sql.Unique Prod.fst index) :
    v ∈ db.selectedVariations index ↔ v ∈ db.enabledIn v.sectionID ∧
      (v.sectionID, Sql.rank (fun v : VariationRow => v.id) (db.enabledIn v.sectionID) v) ∈
        index := by
  unfold selectedVariations
  rw [mem_map]
  constructor
  · rintro ⟨⟨⟨w, n⟩, i⟩, hjoin, rfl⟩
    obtain ⟨hnumbered, hi, hon⟩ := mem_join.1 hjoin
    obtain ⟨hw, rfl⟩ := (mem_numberedVariations h hindex).1 hnumbered
    simp only [Bool.and_eq_true, decide_eq_true_eq] at hon
    refine ⟨((mem_indexed hindex).1 hw).1, ?_⟩
    have heq : i = (w.sectionID,
        Sql.rank (fun v : VariationRow => v.id) (db.enabledIn w.sectionID) w) :=
      Prod.ext hon.1 hon.2
    exact heq ▸ hi
  · rintro ⟨hv, hi⟩
    have hnumbered := (mem_numberedVariations h hindex).2
      ⟨(mem_indexed hindex).2 ⟨hv, _, hi, rfl⟩, rfl⟩
    exact ⟨(_, _), mem_join.2 ⟨hnumbered, hi, by simp⟩, rfl⟩

theorem unique_selected (hindex : Sql.Unique Prod.fst index) :
    Sql.Unique (fun v : VariationRow => v.id) (db.selectedVariations index) := by
  have hfst : (db.numberedVariations index).map Prod.fst = db.indexed index := by
    unfold numberedVariations
    rw [map_map]
    exact zipIdx_map_fst _ _
  have hsub : (db.selectedVariations index).Sublist (db.indexed index) := by
    unfold selectedVariations
    rw [← hfst, show (fun x : (VariationRow × ℕ) × ℤ × ℕ => x.1.1) = Prod.fst ∘ Prod.fst from rfl,
      ← map_map, map_fst_join _ hindex]
    · exact filter_sublist.map _
    · intro v i hi j hj hvi hvj
      simp only [Bool.and_eq_true, decide_eq_true_eq] at hvi hvj
      rw [hvi.1, hvj.1]
  have hids : Sql.Unique (fun v : VariationRow => v.id) (db.indexed index) :=
    pairwise_map.2 ((sorted_indexed h hindex).imp fun hlt => ne_of_lt hlt)
  exact List.Nodup.sublist (hsub.map _) hids

end

end Selected

section Choice

variable {db : Db} {env : ContentEnv} {code whereClause : Text}

section

variable (h : db.PageKeys)
include h

theorem unique_index :
    Sql.Unique Prod.fst ((db.counts code).map (indexOf env whereClause)) := by
  unfold Sql.Unique
  rw [map_map]
  exact unique_counts h

theorem mem_index {i : ℤ × ℕ} :
    i ∈ (db.counts code).map (indexOf env whereClause) ↔ ∃ b s, db.Shows code b s ∧
      i = (s.id, (env.sha1 (b.blockName ++ s.sectionName ++ whereClause)).natAbs %
        (db.enabledIn s.id).card) := by
  rw [mem_map]
  constructor
  · rintro ⟨x, hx, rfl⟩
    obtain ⟨b, s, hs, rfl⟩ := (mem_counts h).1 hx
    exact ⟨b, s, hs, rfl⟩
  · rintro ⟨b, s, hs, rfl⟩
    exact ⟨_, (mem_counts h).2 ⟨b, s, hs, rfl⟩, rfl⟩

theorem chosen_eq {hash sectionID : ℤ} {v : VariationRow}
    (hv : v ∈ chosen hash (db.enabledIn sectionID)) :
    chosen hash (db.enabledIn sectionID) = {v} := by
  have hinj : Set.InjOn (fun v : VariationRow => v.id) (db.enabledIn sectionID) :=
    fun a ha b hb he => h.variations.eq (mem_enabledIn.1 ha).1 (mem_enabledIn.1 hb).1 he
  obtain ⟨hv, hrank⟩ := Finset.mem_filter.1 hv
  ext w
  rw [chosen, Finset.mem_filter, Finset.mem_singleton]
  constructor
  · rintro ⟨hw, hw'⟩
    exact rank_injOn hinj hw hv (hw'.trans hrank.symm)
  · rintro rfl
    exact ⟨hv, hrank⟩

theorem exists_chosen (hash : ℤ) {sectionID : ℤ}
    (hne : (db.enabledIn sectionID).Nonempty) :
    ∃ v, v ∈ chosen hash (db.enabledIn sectionID) := by
  have hinj : Set.InjOn (fun v : VariationRow => v.id) (db.enabledIn sectionID) :=
    fun a ha b hb he => h.variations.eq (mem_enabledIn.1 ha).1 (mem_enabledIn.1 hb).1 he
  obtain ⟨v, hv, hrank⟩ := exists_rank_eq hinj (Nat.mod_lt hash.natAbs (Finset.card_pos.2 hne))
  exact ⟨v, Finset.mem_filter.2 ⟨hv, hrank⟩⟩

theorem mem_selected_iff {v : VariationRow} :
    v ∈ db.selectedVariations ((db.counts code).map (indexOf env whereClause)) ↔
      ∃ b s, db.Shows code b s ∧ v ∈ chosen (env.sha1 (b.blockName ++ s.sectionName ++ whereClause))
        (db.enabledIn s.id) := by
  rw [mem_selected h (unique_index h), mem_index h]
  simp only [Prod.mk.injEq]
  constructor
  · rintro ⟨hv, b, s, hs, hsec, hrank⟩
    rw [hsec] at hv hrank
    exact ⟨b, s, hs, Finset.mem_filter.2 ⟨hv, hrank⟩⟩
  · rintro ⟨b, s, hs, hv⟩
    obtain ⟨hv, hrank⟩ := Finset.mem_filter.1 hv
    have hsec := (mem_enabledIn.1 hv).2.1
    rw [hsec]
    exact ⟨hv, b, s, hs, rfl, hrank⟩

theorem filter_selected {b : BlockRow} {s : SectionRow}
    (hs : db.Shows code b s) : ∃ v,
      (db.selectedVariations ((db.counts code).map (indexOf env whereClause))).filter
        (fun v => v.sectionID = s.id) = [v] ∧
      chosen (env.sha1 (b.blockName ++ s.sectionName ++ whereClause)) (db.enabledIn s.id) =
        {v} := by
  obtain ⟨v, hv⟩ := exists_chosen h (env.sha1 (b.blockName ++ s.sectionName ++ whereClause))
    hs.variation
  have hchosen := chosen_eq h hv
  refine ⟨v, ?_, hchosen⟩
  refine (unique_selected h (unique_index h)).filter_eq_singleton
    ((mem_selected_iff h).2 ⟨b, s, hs, hv⟩) fun w hw => ?_
  rw [decide_eq_true_eq]
  constructor
  · intro hsec
    obtain ⟨b', s', hs', hw'⟩ := (mem_selected_iff h).1 hw
    have hid : s'.id = s.id := (mem_enabledIn.1 (Finset.mem_filter.1 hw').1).2.1.symm.trans hsec
    obtain ⟨rfl, rfl⟩ := hs'.eq h hs hid
    rw [hchosen, Finset.mem_singleton] at hw'
    rw [hw']
  · intro hid
    have hwv := (mem_selected h (unique_index h)).1 hw
    have hv' := (mem_enabledIn.1 (Finset.mem_filter.1 hv).1)
    rw [h.variations.eq (mem_enabledIn.1 hwv.1).1 hv'.1 hid, hv'.2.1]

end

end Choice

section Page

variable {db : Db} {env : ContentEnv} {pageCode whereClause : Text}

theorem selected_of_hash (h : db.PageKeys)
    (hhash : db.HashesOk env (varchar 30 (env.encode pageCode)) whereClause) :
    ∃ selected batch, db.spPageGetContent env pageCode whereClause = .ok (selected, batch) ∧
      (∀ v ∈ selected, ∃ b s, db.Shows (varchar 30 (env.encode pageCode)) b s ∧
        v ∈ db.enabledIn s.id) ∧
      ∀ b s, db.Shows (varchar 30 (env.encode pageCode)) b s →
        ∃ v, selected.filter (fun v => v.sectionID = s.id) = [v] ∧
          chosen (env.sha1 (b.blockName ++ s.sectionName ++ whereClause)) (db.enabledIn s.id) =
            {v} := by
  have hok := congrArg (Except.map fun index : List (ℤ × ℕ) =>
    (db.selectedVariations index, contentBatch (db.selectedVariations index) whereClause))
    (variationIndex_ok h hhash)
  refine ⟨_, _, hok, fun v hv => ?_, fun b s hs => filter_selected h hs⟩
  obtain ⟨b, s, hs, hchosen⟩ := (mem_selected_iff h).1 hv
  exact ⟨b, s, hs, (Finset.mem_filter.1 hchosen).1⟩

/-- The code of the page shows the same sections when it is cut to 30 characters, and the hash of
none of them is the least integer. -/
structure Selects (db : Db) (env : ContentEnv) (pageCode whereClause : Text) : Prop where
  page : ∀ b s, db.Shows (varchar 30 (env.encode pageCode)) b s ↔
    db.Shows (env.encode pageCode) b s
  hash : ∀ b s, db.Shows (env.encode pageCode) b s →
    env.sha1 (b.blockName ++ s.sectionName ++ whereClause) ≠ -2147483648

theorem hashesOk_of_getContent (h : db.PageKeys) {result : List VariationRow × Text}
    (hok : db.spPageGetContent env pageCode whereClause = .ok result) :
    db.HashesOk env (varchar 30 (env.encode pageCode)) whereClause := by
  obtain ⟨index, hindex⟩ := exists_map_ok_iff.1 ⟨result, hok⟩
  exact hashesOk_of_ok h hindex

/-- One variation of each section is selected exactly if the code of the page may be cut to 30
characters and no hash is the least integer. -/
theorem one_per_section_iff (h : db.PageKeys) :
    OnePerSection db env pageCode whereClause ↔ db.Selects env pageCode whereClause := by
  constructor
  · rintro ⟨selected, batch, hok, hnothing, hone⟩
    have hhash := hashesOk_of_getContent h hok
    obtain ⟨selected', batch', hok', hnothing', hone'⟩ := selected_of_hash h hhash
    rw [hok, Except.ok.injEq, Prod.mk.injEq] at hok'
    obtain ⟨rfl, -⟩ := hok'
    have hpage : ∀ b s, db.Shows (varchar 30 (env.encode pageCode)) b s ↔
        db.Shows (env.encode pageCode) b s := by
      -- a section of either page has a selected variation, which is one of a section of the other
      have hsame : ∀ {code code' : Text}, (∀ v ∈ selected, ∃ b s, db.Shows code' b s ∧
          v ∈ db.enabledIn s.id) → (∀ b s, db.Shows code b s →
            ∃ v, selected.filter (fun v => v.sectionID = s.id) = [v]) →
          ∀ b s, db.Shows code b s → db.Shows code' b s := by
        intro code code' hno hex b s hs
        obtain ⟨v, hv⟩ := hex b s hs
        obtain ⟨hsel, hsec⟩ := mem_filter.1 (hv ▸ mem_singleton_self v)
        obtain ⟨b', s', hs', hv'⟩ := hno v hsel
        rw [decide_eq_true_eq, (mem_enabledIn.1 hv').2.1] at hsec
        obtain ⟨rfl, rfl⟩ := hs'.eq h hs hsec
        exact hs'
      refine fun b s => ⟨hsame hnothing (fun b s hs => ?_) b s, hsame hnothing' (fun b s hs => ?_)
        b s⟩
      · obtain ⟨v, hv, -⟩ := hone' b s hs
        exact ⟨v, hv⟩
      · obtain ⟨v, hv, -⟩ := hone b s hs
        exact ⟨v, hv⟩
    exact ⟨hpage, fun b s hs => hhash b s ((hpage b s).2 hs)⟩
  · rintro ⟨hpage, hhash⟩
    have hashes : db.HashesOk env (varchar 30 (env.encode pageCode)) whereClause :=
      fun b s hs => hhash b s ((hpage b s).1 hs)
    have hsel := selected_of_hash h hashes
    simp only [hpage] at hsel
    exact hsel

end Page

end Db

theorem pageKeys_contentDb (env : ContentEnv) (name : Text) {ids : List ℤ} (h : ids.Nodup) :
    (contentDb env name ids).PageKeys := by
  constructor <;> simp [Sql.Unique, contentDb, contentVariation, Function.comp_def, h]

theorem one_per_section_contentDb :
    OnePerSection (contentDb plainEnv ['B'] [1, 2, 3]) plainEnv [] ['1', '=', '1'] := by
  refine (Db.one_per_section_iff (pageKeys_contentDb plainEnv ['B'] (by decide))).2
    ⟨fun b s => Iff.rfl, ?_⟩
  intro b s _
  simp [plainEnv]

def leastEnv : ContentEnv := { plainEnv with sha1 := fun _ => -2147483648 }

theorem contentDb_least_hash :
    (contentDb leastEnv [] [1]).PageKeys ∧ ¬OnePerSection (contentDb leastEnv [] [1]) leastEnv [] []
      := by
  refine ⟨pageKeys_contentDb leastEnv [] (by decide), ?_⟩
  rintro ⟨selected, batch, hok, -⟩
  have herror : (contentDb leastEnv [] [1]).spPageGetContent leastEnv [] [] = .error .sql := rfl
  rw [herror] at hok
  cases hok

end AciX
