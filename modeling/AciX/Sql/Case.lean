import AciX.Context

/-!
# Letter case, letters and blanks

The collation does not tell a text from its upper-case form. Letters are those of the alphabet;
blanks at either end make no difference to the letters of a text.
-/

namespace AciX.Sql

open List

variable {c : Char}

def ltrim (s : Text) : Text := s.dropWhile (· == ' ')

def isLetter (c : Char) : Bool := 'a' ≤ foldChar c && foldChar c ≤ 'z'

theorem of_latin1 {P : Char → Prop} (h : ∀ n < 256, P (Char.ofNat n)) (hc : c ≤ 'ÿ') : P c := by
  have hle : c.toNat ≤ 255 := Char.le_def.1 hc
  have := h c.toNat (by omega)
  rwa [Char.ofNat_toNat] at this

theorem upperChar_of_lt (hc : ¬ c ≤ 'ÿ') :
    upperChar c = if c = 'š' then 'Š' else if c = 'œ' then 'Œ' else if c = 'ž' then 'Ž' else c := by
  have hz : ¬ c ≤ 'z' := fun h => hc (h.trans (by decide))
  have hthorn : ¬ c ≤ 'þ' := fun h => hc (h.trans (by decide))
  have hy : c ≠ 'ÿ' := fun h => hc h.le
  simp only [upperChar, hz, hthorn, hy, and_false, false_and, or_self, if_false]

theorem foldChar_upperChar (c : Char) : foldChar (upperChar c) = foldChar c := by
  by_cases hc : c ≤ 'ÿ'
  · exact of_latin1 (P := fun c => foldChar (upperChar c) = foldChar c) (by decide +kernel) hc
  rw [upperChar_of_lt hc]
  split_ifs with h1 h2 h3
  · rw [h1]; decide
  · rw [h2]; decide
  · rw [h3]; decide
  · rfl

theorem upperChar_eq_iff {d : Char} (hd : d ≤ '\x7f')
    (h : ∀ n < 256, upperChar (Char.ofNat n) = d ↔ Char.ofNat n = d) (c : Char) :
    upperChar c = d ↔ c = d := by
  by_cases hc : c ≤ 'ÿ'
  · exact of_latin1 (P := fun c => upperChar c = d ↔ c = d) h hc
  have hne : ∀ {e : Char}, ¬ e ≤ '\x7f' → e ≠ d := fun he heq => he (heq ▸ hd)
  have hcd : c ≠ d := hne fun h => hc (h.trans (by decide))
  rw [upperChar_of_lt hc]
  split_ifs
  · exact iff_of_false (hne (by decide)) hcd
  · exact iff_of_false (hne (by decide)) hcd
  · exact iff_of_false (hne (by decide)) hcd
  · rfl

theorem upperChar_eq_blank (c : Char) : upperChar c = ' ' ↔ c = ' ' :=
  upperChar_eq_iff (by decide) (by decide +kernel) c

theorem foldChar_of_lt (hc : ¬ c ≤ 'ÿ') :
    foldChar c = if c = 'Š' then 'š' else if c = 'Œ' then 'œ' else if c = 'Ž' then 'ž'
      else if c = 'Ÿ' then 'ÿ' else c := by
  have hz : ¬ c ≤ 'Z' := fun h => hc (h.trans (by decide))
  have hthorn : ¬ c ≤ 'Þ' := fun h => hc (h.trans (by decide))
  simp only [foldChar, hz, hthorn, and_false, false_and, or_self, if_false]

theorem foldChar_foldChar (c : Char) : foldChar (foldChar c) = foldChar c := by
  by_cases hc : c ≤ 'ÿ'
  · exact of_latin1 (P := fun c => foldChar (foldChar c) = foldChar c) (by decide +kernel) hc
  have hfold := foldChar_of_lt hc
  split_ifs at hfold with h1 h2 h3 h4
  · rw [hfold]; decide
  · rw [hfold]; decide
  · rw [hfold]; decide
  · rw [hfold]; decide
  · rw [hfold, hfold]

theorem foldChar_eq_iff {d : Char} (hd : d ≤ '\x7f')
    (h : ∀ n < 256, foldChar (Char.ofNat n) = d ↔ Char.ofNat n = d) (c : Char) :
    foldChar c = d ↔ c = d := by
  by_cases hc : c ≤ 'ÿ'
  · exact of_latin1 (P := fun c => foldChar c = d ↔ c = d) h hc
  have hne : ∀ {e : Char}, ¬ e ≤ '\x7f' → e ≠ d := fun he heq => he (heq ▸ hd)
  have hcd : c ≠ d := hne fun h => hc (h.trans (by decide))
  rw [foldChar_of_lt hc]
  split_ifs
  · exact iff_of_false (hne (by decide)) hcd
  · exact iff_of_false (hne (by decide)) hcd
  · exact iff_of_false (hne (by decide)) hcd
  · exact iff_of_false (hne (by decide)) hcd
  · rfl

theorem foldChar_eq_blank (c : Char) : foldChar c = ' ' ↔ c = ' ' :=
  foldChar_eq_iff (by decide) (by decide +kernel) c

theorem foldChar_of_lower (h : 'a' ≤ c ∧ c ≤ 'z') : foldChar c = c :=
  of_latin1 (P := fun c => 'a' ≤ c ∧ c ≤ 'z' → foldChar c = c) (by decide +kernel)
    (h.2.trans (by decide)) h

theorem isLetter_upperChar (c : Char) : isLetter (upperChar c) = isLetter c := by
  unfold isLetter
  rw [foldChar_upperChar]

theorem isLetter_foldChar (h : isLetter c = true) : isLetter (foldChar c) = true := by
  have hlower : 'a' ≤ foldChar c ∧ foldChar c ≤ 'z' := by simpa [isLetter] using h
  rw [isLetter, foldChar_of_lower hlower]
  exact h

theorem ne_blank_of_isLetter (h : isLetter c = true) : c ≠ ' ' := by
  rintro rfl
  revert h
  decide

section Blanks

variable {s : Text} (n : ℕ)

theorem rtrim_eq_nil : rtrim s = [] ↔ ∀ c ∈ s, c = ' ' := by
  simp [rtrim]

theorem rtrim_of_notMem (h : ∀ c ∈ s, c ≠ ' ') : rtrim s = s := by
  unfold rtrim
  rw [rdropWhile_eq_self_iff]
  intro hne
  simpa using h _ (getLast_mem hne)

theorem rtrim_rtrim (s : Text) : rtrim (rtrim s) = rtrim s := rdropWhile_idempotent _ _

theorem rtrim_append_blanks {b : Text} (hb : ∀ c ∈ b, c = ' ') (a : Text) :
    rtrim (a ++ b) = rtrim a := by
  have hrev : ∀ c ∈ b.reverse, (c == ' ') = true := fun c hc => by simp [hb c (by simpa using hc)]
  unfold rtrim List.rdropWhile
  rw [reverse_append, dropWhile_append_of_pos hrev]

theorem exists_rtrim_append (s : Text) : ∃ b, s = rtrim s ++ b ∧ ∀ c ∈ b, c = ' ' := by
  refine ⟨s.rtakeWhile (· == ' '), rdropWhile_append_rtakeWhile.symm, fun c hc => ?_⟩
  simpa using mem_rtakeWhile_imp hc

theorem rtrim_take {n : ℕ} (h : (rtrim s).length ≤ n) : rtrim (s.take n) = rtrim s := by
  obtain ⟨b, hs, hb⟩ := exists_rtrim_append s
  have htake : s.take n = rtrim s ++ b.take (n - (rtrim s).length) := by
    conv_lhs => rw [hs]
    rw [take_append, take_of_length_le h]
  rw [htake, rtrim_append_blanks fun c hc => hb c (mem_of_mem_take hc), rtrim_rtrim]

theorem rtrim_char (s : Text) : rtrim (char n s) = rtrim (varchar n s) := by
  unfold char varchar List.rightpad
  rw [rtrim_append_blanks fun c hc => (mem_replicate.1 hc).2]

theorem textEq_varchar (s : Text) : textEq (varchar n s) s = true ↔ (rtrim s).length ≤ n := by
  rw [textEq_iff]
  constructor
  · intro h
    have hlen := congrArg List.length h
    have hle := (List.rdropWhile_prefix (· == ' ') (s.take n)).length_le
    simp only [collate, varchar, rtrim, length_map, length_take] at hlen hle ⊢
    omega
  · intro h
    unfold collate varchar
    rw [rtrim_take h]

theorem collate_char (s : Text) : collate (char n s) = collate (varchar n s) := by
  rw [collate, rtrim_char, collate]

theorem rtrim_map {f : Char → Char} (hf : ∀ c, f c = ' ' ↔ c = ' ') (s : Text) :
    rtrim (s.map f) = (rtrim s).map f := by
  have hcomp : (fun x => x == ' ') ∘ f = fun x => x == ' ' := by
    funext c
    simp [hf]
  unfold rtrim List.rdropWhile
  rw [← map_reverse, dropWhile_map, map_reverse, hcomp]

theorem collate_rtrim (s : Text) : collate (rtrim s) = collate s := by
  unfold collate
  rw [rtrim_rtrim]

theorem collate_collate (s : Text) : collate (collate s) = collate s := by
  have hcomp : foldChar ∘ foldChar = foldChar := funext foldChar_foldChar
  unfold collate
  rw [rtrim_map foldChar_eq_blank, rtrim_rtrim, map_map, hcomp]

theorem collate_toUpper (s : Text) : collate (toUpper s) = collate s := by
  have hcomp : foldChar ∘ upperChar = foldChar := funext foldChar_upperChar
  unfold collate toUpper
  rw [rtrim_map upperChar_eq_blank, map_map, hcomp]

theorem collate_of_lower (h : ∀ c ∈ s, 'a' ≤ c ∧ c ≤ 'z') : collate s = s := by
  have hblank : ∀ c ∈ s, c ≠ ' ' := by
    intro c hc hb
    have := (h c hc).1
    rw [hb] at this
    revert this
    decide
  unfold collate
  rw [rtrim_of_notMem hblank]
  calc s.map foldChar = s.map id := map_congr_left fun c hc => foldChar_of_lower (h c hc)
    _ = s := map_id s

theorem collate_ltrim (h : ∀ c ∈ collate s, isLetter c = true) : collate (ltrim s) = collate s := by
  rcases s with _ | ⟨c, s⟩
  · rfl
  by_cases hc : c = ' '
  · subst hc
    have hall : rtrim (' ' :: s) = [] := by
      by_contra hne
      obtain ⟨b, hs, -⟩ := exists_rtrim_append (' ' :: s)
      obtain ⟨d, t, hd⟩ := exists_cons_of_ne_nil hne
      rw [hd, cons_append, List.cons.injEq] at hs
      have hmem := h (foldChar d) (by simp [collate, hd])
      rw [← hs.1] at hmem
      revert hmem
      decide
    have hblank := rtrim_eq_nil.1 hall
    have hl : ltrim (' ' :: s) = [] := by
      simp only [ltrim, dropWhile_eq_nil_iff]
      intro c hc
      simp [hblank c hc]
    rw [hl, collate, collate, hall]
    rfl
  · simp [ltrim, hc]

variable {p : Char → Bool}

theorem filter_ltrim (hp : p ' ' = false) : ∀ s : Text, (ltrim s).filter p = s.filter p
  | [] => rfl
  | c :: s => by
    by_cases hc : c = ' '
    · subst hc
      have ih := filter_ltrim hp s
      simp only [ltrim] at ih ⊢
      simp [hp, ih]
    · simp [ltrim, hc]

theorem filter_rtrim (hp : p ' ' = false) (s : Text) : (rtrim s).filter p = s.filter p := by
  have h := filter_ltrim hp s.reverse
  simp only [ltrim] at h
  rw [rtrim, List.rdropWhile, filter_reverse, h, ← filter_reverse, reverse_reverse]

end Blanks

end AciX.Sql
