import AciX.Search.Names
import AciX.Sql.Case

/-!
# Names that start with a stem

`name LIKE stem + '%'` asks whether the name starts with the stem, and
`SUBSTRING(name,LEN(stem)+1,1)` is the letter that follows, if the stem is plain: without the
wildcards of a pattern, and without blanks, which a comparison may drop. A quote is not plain
either, as it ends a literal.
-/

namespace AciX.Sql

open List

def isPlain (c : Char) : Bool := c ≠ ' ' && c ≠ '\'' && c ≠ '%' && c ≠ '_' && c ≠ '['

def PlainStem (p : Text) : Prop := ∀ c ∈ p, isPlain (foldChar c) = true

instance (p : Text) : Decidable (PlainStem p) :=
  decidable_of_iff (p.all fun c => isPlain (foldChar c)) all_eq_true

theorem isPlain_of_foldChar {c : Char} (h : isPlain (foldChar c) = true) : isPlain c = true := by
  have hfix : ∀ d ∈ [' ', '\'', '%', '_', '['], foldChar d = d := by
    intro d hd
    simp only [mem_cons, not_mem_nil, or_false] at hd
    rcases hd with rfl | rfl | rfl | rfl | rfl <;> rfl
  by_contra hc
  have hmem : c ∈ [' ', '\'', '%', '_', '['] := by
    by_contra hmem
    simp only [mem_cons, not_mem_nil, or_false, not_or] at hmem
    simp [isPlain, hmem] at hc
  rw [hfix c hmem] at h
  exact hc h

theorem isPlain_iff {c : Char} :
    isPlain c = true ↔ c ≠ ' ' ∧ c ≠ '\'' ∧ c ≠ '%' ∧ c ≠ '_' ∧ c ≠ '[' := by
  simp [isPlain, and_assoc]

theorem PlainStem.append {p q : Text} (hp : PlainStem p) (hq : PlainStem q) :
    PlainStem (p ++ q) := by
  intro c hc
  rcases mem_append.1 hc with hc | hc
  · exact hp c hc
  · exact hq c hc

section Compare

variable {p t : Text}

theorem PlainStem.rtrim (h : PlainStem p) : rtrim p = p :=
  rtrim_of_notMem fun c hc => (isPlain_iff.1 (isPlain_of_foldChar (h c hc))).1

theorem PlainStem.collate (h : PlainStem p) : collate p = p.map foldChar := by
  rw [Sql.collate, h.rtrim]

theorem length_collate (t : Text) : (collate t).length = len t := by simp [Sql.collate, Sql.len]

theorem PlainStem.isPrefix_collate (h : PlainStem p) (t : Text) :
    p.map foldChar <+: t.map foldChar ↔ p.map foldChar <+: Sql.collate t := by
  obtain ⟨b, hb, hblank⟩ := exists_rtrim_append t
  have ht : t.map foldChar = Sql.collate t ++ b.map foldChar := by
    conv_lhs => rw [hb]
    rw [map_append, Sql.collate]
  rw [ht]
  constructor
  · intro hp
    rcases prefix_or_prefix_of_prefix hp (prefix_append _ _) with hp' | ⟨q, hq⟩
    · exact hp'
    rw [← hq, prefix_append_right_inj] at hp
    rcases q with _ | ⟨c, q⟩
    · rw [← hq, append_nil]
    · have hmem : c ∈ p.map foldChar := by simp [← hq]
      obtain ⟨d, hd, rfl⟩ := mem_map.1 hmem
      obtain ⟨e, he, hde⟩ := mem_map.1 (hp.subset mem_cons_self)
      have hplain := h d hd
      rw [← hde, hblank e he] at hplain
      exact absurd hplain (by decide)
  · exact fun hp => hp.trans (prefix_append _ _)

end Compare

theorem patternItems_stem : ∀ {p : Text}, PlainStem p →
    patternItems none (p ++ ['%']) = p.map .exactly ++ [.any]
  | [], _ => rfl
  | c :: p, h => by
    have hc := isPlain_iff.1 (isPlain_of_foldChar (h c (by simp)))
    have ih := patternItems_stem fun d hd => h d (mem_cons_of_mem c hd)
    rw [cons_append, patternItems, ih, map_cons, cons_append]
    · exact hc.2.2.1
    · exact hc.2.2.2.1
    · exact hc.2.2.2.2

theorem likeItems_stem : ∀ (p t : Text),
    likeItems (p.map .exactly ++ [.any]) t = true ↔ p.map foldChar <+: t.map foldChar
  | [], t => by
    have hnil : [] ∈ t.tails := (mem_tails _ _).2 nil_suffix
    simp only [map_nil, nil_append, likeItems, any_eq_true, nil_prefix, iff_true]
    exact ⟨[], hnil, rfl⟩
  | c :: p, [] => by simp [likeItems]
  | c :: p, d :: t => by
    simp only [map_cons, cons_append, likeItems, Bool.and_eq_true, decide_eq_true_eq,
      cons_prefix_cons, likeItems_stem p t]

theorem PlainStem.like (h : PlainStem p) (t : Text) :
    like t (p ++ ['%']) = true ↔ p.map foldChar <+: Sql.collate t := by
  rw [Sql.like, patternItems_stem h, likeItems_stem, h.isPrefix_collate]

theorem exists_letterAt {q t : Text} (h : q <+: collate t) (hlen : q.length < len t) :
    ∃ c, letterAt t (q.length + 1) = [c] ∧ q ++ [foldChar c] <+: collate t := by
  obtain ⟨b, hb, -⟩ := exists_rtrim_append t
  obtain ⟨r, hr⟩ := h
  have hlt : q.length < (rtrim t).length := hlen
  obtain ⟨c, rest, hc⟩ : ∃ c rest, (rtrim t).drop q.length = c :: rest :=
    ⟨_, _, drop_eq_getElem_cons hlt⟩
  refine ⟨c, ?_, ?_⟩
  · have hdrop : t.drop q.length = c :: (rest ++ b) := by
      conv_lhs => rw [hb]
      rw [drop_append_of_le_length hlt.le, hc, cons_append]
    rw [letterAt, Nat.add_sub_cancel, hdrop]
    rfl
  · have hrest : (collate t).drop q.length = foldChar c :: rest.map foldChar := by
      rw [collate, ← map_drop, hc, map_cons]
    rw [← hr, drop_left] at hrest
    rw [← hr, hrest]
    exact ⟨rest.map foldChar, by simp⟩

end AciX.Sql
