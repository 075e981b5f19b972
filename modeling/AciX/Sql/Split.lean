import AciX.Sql.Case
import AciX.Sql.Rows

/-!
# Splitting a text

`fnSplit` cuts a text at each separator in a loop, and trims the parts. It does what `List.splitOn`
does (`fnSplitLoop_eq`), and what it makes of a text that has been cut short are parts that have
been cut short (`parts_take`). Two such lists are put together again by a join on their numbers
(`map_join_zipIdx`).
-/

namespace AciX.Sql

open List

def trim (s : Text) : Text := ltrim (rtrim s)

def charIndex (c : Char) (s : Text) : ℕ := if c ∈ s then s.idxOf c + 1 else 0

def substring (s : Text) (start length : ℕ) : Text := (s.drop (start - 1)).take length

theorem charIndex_pos {c : Char} {s : Text} : 0 < charIndex c s ↔ c ∈ s := by
  unfold charIndex
  split_ifs with h
  · exact iff_of_true (Nat.succ_pos _) h
  · exact iff_of_false (Nat.lt_irrefl 0) h

def fnSplitLoop (sep : Char) (rowData : Text) : List Text :=
  if 0 < charIndex sep rowData then
    trim (substring rowData 1 (charIndex sep rowData - 1)) ::
      fnSplitLoop sep (substring rowData (charIndex sep rowData + 1) (len rowData))
  else [trim rowData]
termination_by rowData.length
decreasing_by
  rename_i h
  have hne : rowData ≠ [] := ne_nil_of_mem (charIndex_pos.1 h)
  have hpos := length_pos_of_ne_nil hne
  simp only [substring, length_take, length_drop]
  omega

/-- The rows that `fnSplit` returns, in the order of their numbers. It fails if a part is longer
than the column. -/
def fnSplit (rowData : Option Text) (sep : Char) : Option (List (Option Text)) :=
  match rowData with
  | none => some [none]
  | some s =>
    let data := fnSplitLoop sep (varchar 2000 s)
    if data.all fun part => part.length ≤ 100 then some (data.map some) else none

section Parts

variable (sep : Char)

def parts (s : Text) : List Text := (s.splitOn sep).map trim

variable {sep} {s t : Text}

theorem parts_of_notMem (h : sep ∉ s) : parts sep s = [trim s] := by
  rw [parts, splitOn_eq_singleton h]
  rfl

theorem parts_append_cons (h : sep ∉ s) : parts sep (s ++ sep :: t) = trim s :: parts sep t := by
  rw [parts, splitOn_append_cons_self_of_not_mem h]
  rfl

theorem parts_cases (sep : Char) (s : Text) :
    sep ∉ s ∨ ∃ before after, s = before ++ sep :: after ∧ sep ∉ before := by
  by_cases h : sep ∈ s
  · exact .inr (eq_append_cons_of_mem h)
  · exact .inl h

theorem parts_induction (sep : Char) {motive : Text → Prop}
    (single : ∀ s, sep ∉ s → motive s)
    (cons : ∀ before after, sep ∉ before → motive after → motive (before ++ sep :: after))
    (s : Text) : motive s := by
  rcases parts_cases sep s with h | ⟨before, after, hs, h⟩
  · exact single s h
  · rw [hs]
    exact cons before after h (parts_induction sep single cons after)
termination_by s.length
decreasing_by
  have hlength := congrArg List.length hs
  rw [length_append, length_cons] at hlength
  omega

theorem rtrim_le (s : Text) : rtrim s <+: s := List.rdropWhile_prefix _ s

theorem trim_sublist (s : Text) : (trim s).Sublist s :=
  (dropWhile_suffix _).sublist.trans (rtrim_le s).sublist

theorem mem_of_mem_trim {c : Char} (h : c ∈ trim s) : c ∈ s := (trim_sublist s).subset h

theorem length_trim_le (s : Text) : (trim s).length ≤ s.length := (trim_sublist s).length_le

theorem rtrim_mono (h : s <+: t) : rtrim s <+: rtrim t := by
  have hs : rtrim s <+: t := (rtrim_le s).trans h
  have ht : rtrim t <+: t := rtrim_le t
  rcases Nat.le_total (rtrim s).length (rtrim t).length with hle | hle
  · exact prefix_of_prefix_length_le hs ht hle
  · obtain ⟨b, heq, hb⟩ := exists_rtrim_append t
    obtain ⟨z, hz⟩ := prefix_of_prefix_length_le ht hs hle
    have hblanks : ∀ c ∈ z, c = ' ' := by
      rw [heq, ← hz] at hs
      exact fun c hc => hb c (((prefix_append_right_inj _).1 hs).subset hc)
    have hsame : rtrim s = rtrim t := by
      rw [← rtrim_rtrim s, ← hz, rtrim_append_blanks hblanks, rtrim_rtrim]
    rw [hsame]

theorem ltrim_mono (h : s <+: t) : ltrim s <+: ltrim t := by
  obtain ⟨z, rfl⟩ := h
  unfold ltrim
  rw [dropWhile_append]
  split_ifs with hnil
  · rw [List.isEmpty_iff.1 hnil]
    exact nil_prefix
  · exact prefix_append _ z

theorem trim_mono (h : s <+: t) : trim s <+: trim t := ltrim_mono (rtrim_mono h)

theorem rtrim_trim (s : Text) : rtrim (trim s) = trim s := by
  have hself := rdropWhile_eq_self_iff.1 (rtrim_rtrim s)
  refine rdropWhile_eq_self_iff.2 fun hne => ?_
  have hsuffix : trim s <:+ rtrim s := dropWhile_suffix _
  rw [hsuffix.getLast hne]
  exact hself _

theorem len_take_le (s : Text) (n : ℕ) : len (s.take n) ≤ len s :=
  (rtrim_mono <| take_prefix n s).length_le

theorem len_le_of_len_take {n : ℕ} (h : len (s.take n) = len s) : len s ≤ n := by
  have hle := (rtrim_le (s.take n)).length_le
  rw [length_take] at hle
  unfold len at h ⊢
  omega

theorem trim_append_blanks {b : Text} (hb : ∀ c ∈ b, c = ' ') (s : Text) :
    trim (s ++ b) = trim s := by
  rw [trim, rtrim_append_blanks hb, trim]

theorem parts_append_blanks (hsep : sep ≠ ' ') {b : Text} (hb : ∀ c ∈ b, c = ' ') (s : Text) :
    parts sep (s ++ b) = parts sep s := by
  induction s using parts_induction sep with
  | single s h =>
    have hboth : sep ∉ s ++ b := by
      intro hmem
      rcases mem_append.1 hmem with hs | hs
      · exact h hs
      · exact hsep (hb sep hs)
    rw [parts_of_notMem h, parts_of_notMem hboth, trim_append_blanks hb]
  | cons before after h ih =>
    rw [append_assoc, cons_append, parts_append_cons h, parts_append_cons h, ih]

theorem charIndex_append (h : sep ∉ s) : charIndex sep (s ++ sep :: t) = s.length + 1 := by
  rw [charIndex, if_pos (mem_append_right _ mem_cons_self), idxOf_append_of_notMem h,
    idxOf_cons_self, Nat.add_zero]

theorem blanks_of_drop_len (s : Text) {n : ℕ} (h : len s ≤ n) : ∀ c ∈ s.drop n, c = ' ' := by
  obtain ⟨b, hs, hb⟩ := exists_rtrim_append s
  have hnil : (rtrim s).drop n = [] := drop_eq_nil_of_le h
  intro c hc
  rw [hs, drop_append, hnil, nil_append] at hc
  exact hb c (mem_of_mem_drop hc)

theorem fnSplitLoop_eq (hsep : sep ≠ ' ') (s : Text) : fnSplitLoop sep s = parts sep s := by
  rw [fnSplitLoop]
  rcases parts_cases sep s with h | ⟨before, after, hs, h⟩
  · rw [if_neg (mt charIndex_pos.1 h), parts_of_notMem h]
  · have hindex : charIndex sep s = before.length + 1 := by rw [hs, charIndex_append h]
    have hdrop : s.drop (before.length + 1) = after := by simp [hs]
    have hfirst : substring s 1 (before.length + 1 - 1) = before := by simp [hs, substring]
    have hrest : substring s (before.length + 1 + 1) (len s) = after.take (len s) := by
      rw [substring, Nat.add_sub_cancel, hdrop]
    have hblanks : ∀ c ∈ after.drop (len s), c = ' ' := by
      rw [← hdrop, drop_drop]
      exact blanks_of_drop_len s (Nat.le_add_left _ _)
    have hparts := parts_append_blanks hsep hblanks (after.take (len s))
    rw [take_append_drop] at hparts
    rw [if_pos (by omega), hindex, hfirst, hrest, fnSplitLoop_eq hsep (after.take (len s)),
      ← hparts, hs, parts_append_cons h]
termination_by s.length
decreasing_by
  have hlength := congrArg List.length hs
  rw [length_append, length_cons] at hlength
  rw [length_take]
  omega

theorem notMem_of_mem_parts {part : Text} (s : Text) (hp : part ∈ parts sep s) : sep ∉ part := by
  induction s using parts_induction sep with
  | single s h =>
    rw [parts_of_notMem h, mem_singleton] at hp
    rw [hp]
    exact fun hmem => h (mem_of_mem_trim hmem)
  | cons before after h ih =>
    rw [parts_append_cons h] at hp
    rcases mem_cons.1 hp with rfl | hp
    · exact fun hmem => h (mem_of_mem_trim hmem)
    · exact ih hp

theorem length_of_mem_parts {part : Text} (s : Text) (hp : part ∈ parts sep s) :
    part.length ≤ s.length := by
  induction s using parts_induction sep with
  | single s h =>
    rw [parts_of_notMem h, mem_singleton] at hp
    rw [hp]
    exact length_trim_le s
  | cons before after h ih =>
    rw [parts_append_cons h] at hp
    rw [length_append, length_cons]
    rcases mem_cons.1 hp with rfl | hp
    · have := length_trim_le before
      omega
    · have := ih hp
      omega

theorem rtrim_of_mem_parts {part : Text} (h : part ∈ parts sep s) : rtrim part = part := by
  obtain ⟨t, -, rfl⟩ := mem_map.1 h
  exact rtrim_trim t

theorem parts_ne_nil (s : Text) : parts sep s ≠ [] := by
  rcases parts_cases sep s with h | ⟨before, after, rfl, h⟩
  · rw [parts_of_notMem h]
    exact cons_ne_nil _ _
  · rw [parts_append_cons h]
    exact cons_ne_nil _ _

theorem two_le_length_parts (h : sep ∈ s) : 2 ≤ (parts sep s).length := by
  rcases parts_cases sep s with hs | ⟨before, after, rfl, hs⟩
  · exact absurd h hs
  · have hpos : 0 < (parts sep after).length := length_pos_of_ne_nil (parts_ne_nil after)
    rw [parts_append_cons hs, length_cons]
    omega

theorem parts_take (sep : Char) (s : Text) (n : ℕ) : ∃ first rest,
    parts sep s = first ++ rest ∧ List.Forall₂ (· <+: ·) (parts sep (s.take n)) first := by
  induction s using parts_induction sep generalizing n with
  | single s h =>
    refine ⟨[trim s], [], by rw [parts_of_notMem h]; rfl, ?_⟩
    rw [parts_of_notMem fun hmem => h (mem_of_mem_take hmem)]
    exact .cons (trim_mono <| take_prefix n s) .nil
  | cons before after h ih =>
    rw [parts_append_cons h]
    by_cases hn : n ≤ before.length
    · refine ⟨[trim before], parts sep after, rfl, ?_⟩
      rw [take_append_of_le_length hn, parts_of_notMem fun hmem => h (mem_of_mem_take hmem)]
      exact .cons (trim_mono <| take_prefix n before) .nil
    · obtain ⟨m, rfl⟩ : ∃ m, n = before.length + (m + 1) := ⟨n - before.length - 1, by omega⟩
      obtain ⟨first, rest, hrest, hprefix⟩ := ih m
      refine ⟨trim before :: first, rest, by rw [hrest]; rfl, ?_⟩
      rw [take_length_add_append, take_succ_cons, parts_append_cons h]
      exact .cons (prefix_refl _) hprefix

end Parts

theorem fnSplit_some {sep : Char} (hsep : sep ≠ ' ') {s : Text} (hs : s.length ≤ 2000) :
    fnSplit (some s) sep =
      if (parts sep s).all fun part => part.length ≤ 100 then some ((parts sep s).map some)
      else none := by
  simp only [fnSplit, varchar, take_of_length_le hs, fnSplitLoop_eq hsep]

theorem notMem_of_mem_fnSplit {sep : Char} (hsep : sep ≠ ' ') {list : Option Text} {part : Text}
    (h : some part ∈ (fnSplit list sep).getD []) : sep ∉ part := by
  rcases list with _ | s
  · simp [fnSplit] at h
  · simp only [fnSplit, fnSplitLoop_eq hsep] at h
    split_ifs at h
    · obtain ⟨p, hp, heq⟩ := mem_map.1 h
      obtain rfl := Option.some.inj heq
      exact notMem_of_mem_parts _ hp
    · cases h

section Positions

variable {α β : Type*}

theorem join_zipIdx_cons (a : α) (l : List α) (b : β) (m : List β) (n : ℕ) :
    join (fun x y => decide (x.2 = y.2)) ((a :: l).zipIdx n) ((b :: m).zipIdx n) =
      ((a, n), (b, n)) :: join (fun x y => decide (x.2 = y.2)) (l.zipIdx (n + 1))
        (m.zipIdx (n + 1)) := by
  have hhead : (m.zipIdx (n + 1)).filter (fun y => decide (n = y.2)) = [] := by
    refine filter_eq_nil_iff.2 fun y hy => ?_
    have hle := le_snd_of_mem_zipIdx hy
    simp only [decide_eq_true_eq]
    omega
  have htail : ∀ x ∈ l.zipIdx (n + 1), ((b, n) :: m.zipIdx (n + 1)).filter (fun y =>
      decide (x.2 = y.2)) = (m.zipIdx (n + 1)).filter fun y => decide (x.2 = y.2) := by
    intro x hx
    have hle := le_snd_of_mem_zipIdx hx
    refine filter_cons_of_neg ?_
    simp only [decide_eq_true_eq]
    omega
  unfold join
  rw [zipIdx_cons, zipIdx_cons, flatMap_cons, filter_cons_of_pos (by simp),
    hhead, map_singleton, singleton_append]
  refine congrArg (_ :: ·) (flatMap_congr fun x hx => ?_)
  rw [htail x hx]

theorem map_join_zipIdx {γ : Type*} (f : α → β → γ) : ∀ (l : List α) (m : List β) (n : ℕ),
    (join (fun x y => decide (x.2 = y.2)) (l.zipIdx n) (m.zipIdx n)).map (fun x => f x.1.1 x.2.1) =
      List.zipWith f l m
  | [], m, n => by simp [join]
  | a :: l, [], n => by simp [join]
  | a :: l, b :: m, n => by
    rw [join_zipIdx_cons, map_cons, zipWith_cons_cons, map_join_zipIdx f l m (n + 1)]

end Positions

end AciX.Sql
