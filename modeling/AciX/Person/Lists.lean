import AciX.Except
import AciX.Sql.CodePage
import AciX.Sql.Split
import AciX.Storefront.Request

/-!
# Lists as parameters

`UpdateDB` joins a list with commas, and the relationship and the id of a relative with a bar;
`spPersonGetID` receives the text in the code page and takes it apart with `fnStrToTable`. A
relationship comes back exactly if the code page holds it and it has neither a comma nor a bar, and
ids always do (`lists_roundTrip_iff`).
-/

namespace AciX.Person

open List Sql

def charIndexFrom (c : Char) (s : Text) (start : ℕ) : ℕ :=
  if c ∈ s.drop (start - 1) then (s.drop (start - 1)).idxOf c + start else 0

def fnStrToTable (tally : List ℕ) (delimeter : Char) (stringList : Text) : List Text :=
  let whole := if delimeter ∈ stringList then [] else [stringList]
  let stringList :=
    if delimeter ∈ stringList then delimeter :: (stringList ++ [delimeter]) else stringList
  whole ++ (tally.filter fun n =>
    n < len stringList && substring stringList n 1 = [delimeter]).map fun n =>
      substring stringList (n + 1) (charIndexFrom delimeter stringList (n + 1) - n - 1)

def encode (items : List Text) : Option Text :=
  if items = [] then none else some ([','].intercalate items)

/-- The list as the `VARCHAR(MAX)` parameter receives it. -/
def sent (cp : CodePage) (items : List Text) : Option Text := (encode items).map cp.text

def decode (tally : List ℕ) (list : Option Text) : List Text :=
  list.elim [] (fnStrToTable tally ',')

def encodeRelative (r : Text × ℤ) : Text := r.1 ++ '|' :: intText r.2

/-- `SUBSTRING` fails if there is no bar. -/
def decodeRelative (item : Text) : Except Exn (Text × Text) :=
  let idxDelim := charIndex '|' item
  if idxDelim = 0 then .error .sql
  else .ok (substring item 1 (idxDelim - 1),
    substring item (idxDelim + 1) (len item - idxDelim))

/-- `Tally` has the numbers up to the length of the list, with the delimeters put around it. -/
def Covers (tally : List ℕ) (list : Option Text) : Prop :=
  ∃ m, (list.getD []).length < m ∧ tally.Perm (List.range' 1 m)

section Statement

variable (cp : CodePage)

/-- The ids come back as they were, in some order. -/
def IdsRoundTrip (ids : List ℤ) : Prop :=
  ∀ tally, Covers tally (sent cp (ids.map intText)) →
    (decode tally (sent cp (ids.map intText))).Perm (ids.map intText)

/-- The relationships and ids of the relatives come back as they were, in some order. -/
def RelativesRoundTrip (relatives : List (Text × ℤ)) : Prop :=
  ∀ tally, Covers tally (sent cp (relatives.map encodeRelative)) →
    ∃ rows, (decode tally (sent cp (relatives.map encodeRelative))).mapM decodeRelative = .ok rows ∧
      rows.Perm (relatives.map fun r => (r.1, intText r.2))

end Statement

section Split

variable {d : Char} {a u rest : Text}

theorem substring_one {s : Text} {n : ℕ} (h : substring s (n + 1) 1 = [d]) :
    ∃ t, s.drop n = d :: t := by
  unfold substring at h
  rw [Nat.add_sub_cancel] at h
  rcases hs : s.drop n with _ | ⟨c, t⟩
  · simp [hs] at h
  · rw [hs] at h
    exact ⟨t, by simpa using h⟩

theorem substring_head (a t : Text) : substring (a ++ d :: t) (a.length + 1) 1 = [d] := by
  simp [substring]

theorem filter_between (a rest : Text) (hu : d ∉ u) :
    ((List.range' (a.length + 1) u.length).filter fun n =>
    substring (a ++ (u ++ rest)) n 1 = [d]) = [] := by
  rw [filter_eq_nil_iff]
  intro n hn hd
  obtain ⟨i, hi, rfl⟩ := mem_range'.1 hn
  rw [one_mul, Nat.add_right_comm] at hd
  obtain ⟨t, ht⟩ := substring_one (of_decide_eq_true hd)
  rw [drop_length_add_append, drop_append_of_le_length hi.le] at ht
  have hmem : d ∈ u.drop i := by
    rcases hdrop : u.drop i with _ | ⟨c, v⟩
    · have := congrArg List.length hdrop
      simp only [length_drop, length_nil] at this
      omega
    · rw [hdrop, cons_append, List.cons.injEq] at ht
      rw [ht.1]
      exact mem_cons_self
  exact hu (mem_of_mem_drop hmem)

theorem item_eq (hu : d ∉ u) : substring (a ++ d :: (u ++ d :: rest)) (a.length + 1 + 1)
    (charIndexFrom d (a ++ d :: (u ++ d :: rest)) (a.length + 1 + 1) - (a.length + 1) - 1) = u := by
  have hdrop : (a ++ d :: (u ++ d :: rest)).drop (a.length + 1) = u ++ d :: rest := by
    rw [drop_length_add_append]
    rfl
  have hidx : (u ++ d :: rest).idxOf d = u.length := by
    rw [idxOf_append_of_notMem hu, idxOf_cons_self, Nat.add_zero]
  have hmem : d ∈ u ++ d :: rest := mem_append_right _ mem_cons_self
  rw [charIndexFrom, Nat.add_sub_cancel, hdrop, if_pos hmem, hidx, substring,
    Nat.add_sub_cancel, hdrop]
  have hlen : u.length + (a.length + 1 + 1) - (a.length + 1) - 1 = u.length := by omega
  rw [hlen, take_left]

theorem items_eq (d : Char) (s a : Text) :
    (((List.range' (a.length + 1) (s.length + 1)).filter fun n =>
      substring (a ++ d :: (s ++ [d])) n 1 = [d]).map fun n =>
        substring (a ++ d :: (s ++ [d])) (n + 1)
          (charIndexFrom d (a ++ d :: (s ++ [d])) (n + 1) - n - 1)) = s.splitOn d := by
  induction s using parts_induction d generalizing a with
  | single s hs =>
    have hnil := filter_between (a ++ [d]) [d] hs
    simp only [append_assoc, singleton_append, length_append, length_singleton] at hnil
    rw [List.range'_succ, filter_cons_of_pos (by simp [substring_head]), hnil,
      splitOn_eq_singleton hs, map_singleton, item_eq hs]
  | cons u v hu ih =>
    have hnil := filter_between (a ++ [d]) (d :: (v ++ [d])) hu
    have hrest := ih (a ++ d :: u)
    have hcut : List.range' (a.length + 1) ((u ++ d :: v).length + 1) =
        (a.length + 1) :: (List.range' (a.length + 1 + 1) u.length ++
          List.range' ((a ++ d :: u).length + 1) (v.length + 1)) := by
      rw [List.range'_succ, length_append, length_cons, length_append,
        length_cons, ← List.range'_append_1]
      congr 3
      omega
    simp only [append_assoc, cons_append, nil_append, length_append, length_singleton] at hnil
    simp only [append_assoc, cons_append] at hrest ⊢
    rw [hcut, filter_cons_of_pos (by simp [substring_head]), filter_append, hnil,
      nil_append, map_cons, hrest, item_eq hu, splitOn_append_cons_self_of_not_mem hu]

theorem fnStrToTable_perm {tally : List ℕ} {s : Text} (hd : d ≠ ' ') (h : Covers tally (some s)) :
    (fnStrToTable tally d s).Perm (s.splitOn d) := by
  obtain ⟨m, hm, htally⟩ := h
  by_cases hmem : d ∈ s
  · have hlen : len (d :: (s ++ [d])) = s.length + 2 := by
      rw [len, rtrim, ← cons_append, rdropWhile_concat_neg _ _ _ (by simpa using hd)]
      simp
    have hrange : ((List.range' 1 m).filter fun n => n < s.length + 2 &&
        substring (d :: (s ++ [d])) n 1 = [d]) =
        (List.range' 1 (s.length + 1)).filter fun n =>
          substring (d :: (s ++ [d])) n 1 = [d] := by
      obtain ⟨k, rfl⟩ : ∃ k, m = s.length + 1 + k := ⟨_, (Nat.add_sub_of_le hm).symm⟩
      rw [← List.range'_append_1, filter_append]
      refine (congrArg₂ (· ++ ·) (filter_congr fun n hn => ?_)
        (filter_eq_nil_iff.2 fun n hn => ?_)).trans (append_nil _)
      · have := mem_range'_1.1 hn
        simp only [show n < s.length + 2 by omega, decide_true, Bool.true_and]
      · have := mem_range'_1.1 hn
        simp only [show ¬ n < s.length + 2 by omega, decide_false, Bool.false_and,
          Bool.false_eq_true, not_false_eq_true]
    have hitems := items_eq d s []
    simp only [fnStrToTable, hmem, if_true, nil_append, hlen]
    rw [nil_append] at hitems
    refine ((htally.filter _).map _).trans (.of_eq ?_)
    rw [hrange]
    exact hitems
  · have hnil : (tally.filter fun n => n < len s && substring s n 1 = [d]) = [] := by
      rw [filter_eq_nil_iff]
      intro n _ hn
      rw [Bool.and_eq_true, decide_eq_true_eq, decide_eq_true_eq] at hn
      have hsub : d ∈ substring s n 1 := hn.2 ▸ mem_cons_self
      exact hmem (mem_of_mem_drop (mem_of_mem_take hsub))
    simp only [fnStrToTable, hmem, if_false, hnil, splitOn_eq_singleton hmem]
    exact .refl _

end Split

section RoundTrip

variable {tally : List ℕ} {cp : CodePage}

theorem text_intercalate (cp : CodePage) : ∀ items : List Text,
    cp.text ([','].intercalate items) = [','].intercalate (items.map cp.text)
  | [] => rfl
  | [x] => by simp
  | x :: y :: items => by
    rw [intercalate_cons_cons, map_cons, map_cons, intercalate_cons_cons, ← map_cons,
      ← text_intercalate cp (y :: items)]
    simp [CodePage.text, cp.ascii ',' (by decide)]

theorem sent_eq (cp : CodePage) (items : List Text) :
    sent cp items = encode (items.map cp.text) := by
  unfold sent encode
  by_cases h : items = []
  · simp [h]
  · rw [if_neg h, if_neg (by simpa using h), Option.map_some, text_intercalate]

theorem sent_of_holds {items : List Text} (h : ∀ x ∈ items, cp.Holds x) :
    sent cp items = encode items := by
  rw [sent_eq, map_congr_left fun x hx => (h x hx).text_eq, map_id']

theorem decode_encode_perm {items : List Text} (h : Covers tally (encode items)) :
    (decode tally (encode items)).Perm (items.flatMap (·.splitOn ',')) := by
  unfold encode at h ⊢
  split_ifs at h ⊢ with hnil
  · rw [hnil]
    exact .refl _
  · refine (fnStrToTable_perm (by decide) h).trans (.of_eq ?_)
    clear h
    induction items with
    | nil => cases hnil rfl
    | cons x xs ih =>
      rcases xs with _ | ⟨y, ys⟩
      · rw [intercalate_singleton, flatMap_singleton]
      · rw [intercalate_cons_cons, append_assoc, singleton_append,
          splitOn_append_cons_self, ih nofun]
        rfl

theorem exists_covers (list : Option Text) : ∃ tally, Covers tally list :=
  ⟨_, _, Nat.lt_succ_self _, .refl _⟩

theorem flatMap_splitOn {items : List Text} (h : ∀ x ∈ items, ',' ∉ x) :
    items.flatMap (·.splitOn ',') = items := by
  rw [flatMap_congr fun x hx => splitOn_eq_singleton (h x hx)]
  simp

theorem of_mem_splitOn {x : Text} (s : Text) (h : x ∈ s.splitOn ',') :
    ',' ∉ x ∧ ∀ c ∈ x, c ∈ s := by
  induction s using parts_induction ',' with
  | single s hs =>
    rw [splitOn_eq_singleton hs, mem_singleton] at h
    subst h
    exact ⟨hs, fun _ hc => hc⟩
  | cons before after hbefore ih =>
    rw [splitOn_append_cons_self_of_not_mem hbefore] at h
    rcases mem_cons.1 h with rfl | h
    · exact ⟨hbefore, fun _ hc => mem_append_left _ hc⟩
    · exact ⟨(ih h).1, fun c hc => mem_append_right _ (.tail _ ((ih h).2 c hc))⟩

theorem len_append_intText (n : ℤ) (a : Text) : len (a ++ intText n) = (a ++ intText n).length := by
  have hne : intText n ≠ [] := by
    unfold intText
    split_ifs
    · exact cons_ne_nil _ _
    · exact Nat.toDigits_ne_nil
  rw [len, rtrim, rdropWhile_eq_self_iff.2]
  intro hne'
  rw [getLast_append_of_ne_nil _ hne]
  rcases Storefront.FormCall.mem_intText (getLast_mem hne) with h | h
  · simp [h]
  · intro hblank
    rw [of_decide_eq_true hblank] at h
    cases h

theorem notMem_intText {c : Char} (hc : c = ',' ∨ c = '|') (n : ℤ) : c ∉ intText n := by
  intro hmem
  rcases Storefront.FormCall.mem_intText hmem with h | h <;> rcases hc with rfl | rfl <;> cases h

theorem holds_intText (n : ℤ) : cp.Holds (intText n) := by
  refine CodePage.holds_of_ascii fun c hc => ?_
  rcases Storefront.FormCall.mem_intText hc with rfl | h
  · decide
  · exact (Char.isDigit_iff_toNat.1 h).2.trans_lt (by decide)

theorem decodeRelative_eq {u t a : Text} {n : ℤ} (hu : '|' ∉ u) (ht : t = a ++ intText n) :
    decodeRelative (u ++ '|' :: t) = .ok (u, t) := by
  have hlen : len (u ++ '|' :: t) = (u ++ '|' :: t).length := by
    rw [ht, ← cons_append, ← append_assoc, len_append_intText]
  simp [decodeRelative, charIndex_append hu, hlen, substring]
  omega

theorem relativesRoundTrip {relatives : List (Text × ℤ)}
    (h : ∀ r ∈ relatives, cp.Holds r.1 ∧ ',' ∉ r.1 ∧ '|' ∉ r.1) :
    RelativesRoundTrip cp relatives := by
  intro tally hcovers
  have hholds : ∀ x ∈ relatives.map encodeRelative, cp.Holds x := by
    intro x hx
    obtain ⟨r, hr, rfl⟩ := mem_map.1 hx
    have hbar : cp.Holds ['|'] := CodePage.holds_of_ascii (by simp)
    exact CodePage.holds_append.2 ⟨(h r hr).1, CodePage.holds_append.2 ⟨hbar, holds_intText r.2⟩⟩
  rw [sent_of_holds hholds] at hcovers ⊢
  have hperm := decode_encode_perm hcovers
  rw [flatMap_splitOn] at hperm
  · have hforall : List.Forall₂ (fun a b => decodeRelative a = .ok b)
        (relatives.map encodeRelative) (relatives.map fun r => (r.1, intText r.2)) := by
      rw [List.forall₂_map_left_iff, List.forall₂_map_right_iff, List.forall₂_same]
      exact fun r hr => decodeRelative_eq (a := []) (h r hr).2.2 rfl
    obtain ⟨rows, hrows, hrows'⟩ := perm_comp_forall₂ hperm hforall
    exact ⟨rows, mapM_ok_iff.2 hrows, hrows'⟩
  · intro x hx hcomma
    obtain ⟨r, hr, rfl⟩ := mem_map.1 hx
    rcases mem_append.1 hcomma with hmem | hmem
    · exact (h r hr).2.1 hmem
    · rcases mem_cons.1 hmem with hmem | hmem
      · cases hmem
      · exact notMem_intText (.inl rfl) _ hmem

theorem idsRoundTrip (cp : CodePage) (ids : List ℤ) : IdsRoundTrip cp ids := by
  intro tally hcovers
  have hholds : ∀ x ∈ ids.map intText, cp.Holds x := by
    intro x hx
    obtain ⟨n, -, rfl⟩ := mem_map.1 hx
    exact holds_intText n
  rw [sent_of_holds hholds] at hcovers ⊢
  have hperm := decode_encode_perm hcovers
  rwa [flatMap_splitOn] at hperm
  intro x hx
  obtain ⟨n, -, rfl⟩ := mem_map.1 hx
  exact notMem_intText (.inl rfl) n

theorem decodeRelative_fst {item : Text} {x : Text × Text} (h : decodeRelative item = .ok x) :
    '|' ∉ x.1 ∧ ∀ c ∈ x.1, c ∈ item := by
  rw [decodeRelative] at h
  split_ifs at h with hidx
  obtain rfl := Except.ok.inj h
  obtain ⟨u, t, rfl, hu⟩ := eq_append_cons_of_mem (charIndex_pos.1 (Nat.pos_of_ne_zero hidx))
  have hx : substring (u ++ '|' :: t) 1 (charIndex '|' (u ++ '|' :: t) - 1) = u := by
    simp [charIndex_append hu, substring]
  simp only [hx]
  exact ⟨hu, fun c hc => mem_append_left _ hc⟩

theorem kept_of_roundTrip {relatives : List (Text × ℤ)} (h : RelativesRoundTrip cp relatives) :
    ∀ r ∈ relatives, cp.Holds r.1 ∧ ',' ∉ r.1 ∧ '|' ∉ r.1 := by
  intro r hr
  obtain ⟨tally, hcovers⟩ := exists_covers (sent cp (relatives.map encodeRelative))
  obtain ⟨rows, hrows, hperm⟩ := h tally hcovers
  have hrow : (r.1, intText r.2) ∈ rows := hperm.mem_iff.2 (mem_map.2 ⟨r, hr, rfl⟩)
  obtain ⟨item, hitem, hdecode⟩ := mem_of_mapM_ok hrows hrow
  rw [sent_eq] at hcovers hitem
  obtain ⟨s, hs, hitem⟩ := mem_flatMap.1 ((decode_encode_perm hcovers).mem_iff.1 hitem)
  obtain ⟨t, -, rfl⟩ := mem_map.1 hs
  obtain ⟨hbar, hmem⟩ := decodeRelative_fst hdecode
  obtain ⟨hcomma, hpart⟩ := of_mem_splitOn _ hitem
  -- what comes back was in the converted text, so the code page has its characters
  exact ⟨CodePage.holds_of_subset fun c hc => hpart c (hmem c hc), fun hc => hcomma (hmem _ hc),
    hbar⟩

/-- The lists come back in number and content exactly if the code page holds the relationships and
none of them has a comma or a bar. -/
theorem lists_roundTrip_iff (cp : CodePage) (relatives : List (Text × ℤ))
    (aliasIDs geoLocationIDs : List ℤ) :
    (RelativesRoundTrip cp relatives ∧ IdsRoundTrip cp aliasIDs ∧
      IdsRoundTrip cp geoLocationIDs) ↔
      ∀ r ∈ relatives, cp.Holds r.1 ∧ ',' ∉ r.1 ∧ '|' ∉ r.1 :=
  ⟨fun h => kept_of_roundTrip h.1, fun h =>
    ⟨relativesRoundTrip h, idsRoundTrip cp aliasIDs, idsRoundTrip cp geoLocationIDs⟩⟩

theorem comma_not_roundTrip : ¬ RelativesRoundTrip asciiPage [("son, adopted".toList, 7)] := by
  intro h
  obtain ⟨-, hcomma, -⟩ := kept_of_roundTrip h _ mem_cons_self
  revert hcomma
  decide

end RoundTrip

end AciX.Person
