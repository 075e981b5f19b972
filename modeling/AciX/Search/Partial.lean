import AciX.Context
import AciX.Sql.Case
import AciX.Sql.Rows

/-!
# Names that are the start of others

`spFirstNameCreatePartial` replaces two quotes in a row by one as long as there are any, and then
adds each name without its last character as long as that is missing. The second loop always ends;
the first one fails if two names become equal (`completes_iff`).
-/

namespace AciX.Partial

variable (s : Text) (r : FirstNameRow)

open List Sql

structure FirstNameRow where
  id : ℤ
  firstName : Option Text
  isPartial : Option Bool

def quote : Char := '\x27'

def nameKey (r : FirstNameRow) : Option Text := r.firstName.map collate

section Model

def replaceQuotes : Text → Text
  | c :: d :: s =>
    if c = quote ∧ d = quote then quote :: replaceQuotes s else c :: replaceQuotes (d :: s)
  | s => s

def Doubled (s : Text) : Prop := [quote, quote] <:+: s

instance (s : Text) : Decidable (Doubled s) := inferInstanceAs (Decidable (_ <:+: _))

def convertRow (r : FirstNameRow) : FirstNameRow :=
  if r.firstName.any (Doubled ·) then { r with firstName := r.firstName.map replaceQuotes } else r

def convert : ℕ → List FirstNameRow → Option (Except Exn (List FirstNameRow))
  | 0, _ => none
  | fuel + 1, rows =>
    if rows.any fun r => r.firstName.any (Doubled ·) then
      if Sql.Unique nameKey (rows.map convertRow) then convert fuel (rows.map convertRow)
      else some (.error .sql)
    else some (.ok rows)

def prior (n : Text) : Text := n.take (len n - 1)

def lacks (rows : List FirstNameRow) (n : Text) : Bool :=
  1 < len n && !rows.any fun r => r.firstName.any (textEq · (prior n))

abbrev Scan := (rows : List FirstNameRow) → { l : List FirstNameRow // l.Perm rows }

variable (scan : Scan)

def missing (rows : List FirstNameRow) : List Text :=
  distinctOn collate ((scan rows).1.filterMap fun r =>
    (r.firstName.filter (lacks rows ·)).map prior)

def partialRow (n : Text) (id : ℤ) : FirstNameRow := ⟨id, some n, some true⟩

def insertPartial (rows : List FirstNameRow) (names : List Text) : List FirstNameRow :=
  rows ++ identity partialRow (1 + maxFrom 0 (rows.map (·.id))) names

def complete : ℕ → List FirstNameRow → Option (Except Exn (List FirstNameRow))
  | 0, _ => none
  | fuel + 1, rows =>
    if missing scan rows = [] then some (.ok rows)
    else if Sql.Unique nameKey (insertPartial rows (missing scan rows)) then
      complete fuel (insertPartial rows (missing scan rows))
    else some (.error .sql)

def spFirstNameCreatePartial (fuel : ℕ) (rows : List FirstNameRow) :
    Option (Except Exn (List FirstNameRow)) :=
  (convert fuel rows).bind fun
    | .error e => some (.error e)
    | .ok rows => complete scan fuel rows

end Model

structure Completed (rows rows' : List FirstNameRow) : Prop where
  quotes : ∀ r ∈ rows', ∀ n, r.firstName = some n → ¬ Doubled n
  prefixes : ∀ r ∈ rows', ∀ n p, r.firstName = some n → p <+: n → p ≠ [] → p ≠ n →
    ∃ r' ∈ rows', r'.firstName.any (textEq · p) = true
  kept : ∀ r ∈ rows, (∀ n, r.firstName = some n → quote ∉ n) → r ∈ rows'
  added : ∀ r ∈ rows', (∀ r₀ ∈ rows, r.id ≠ r₀.id) → r.isPartial = some true ∧
    ∃ r₀ ∈ rows, ∃ n p n', r₀.firstName = some n ∧ p <+: n ∧ r.firstName = some n' ∧
      textEq n' p = true

def Completes (scan : Scan) (rows : List FirstNameRow) : Prop :=
  ∃ fuel rows', spFirstNameCreatePartial scan fuel rows = some (.ok rows') ∧ Completed rows rows'

def collapse : Text → Text
  | [] => []
  | c :: s => if c = quote ∧ s.head? = some quote then collapse s else c :: collapse s

def collapseRow (r : FirstNameRow) : FirstNameRow :=
  { r with firstName := r.firstName.map collapse }

/-- The names differ also with their quotes converted, and the start of a converted name is one of
these or the start of a name there was. -/
structure Convertible (rows : List FirstNameRow) : Prop where
  names : Sql.Unique nameKey (rows.map collapseRow)
  prefixes : ∀ r ∈ rows, ∀ n p, r.firstName = some n → p <+: collapse n → p ≠ [] →
    ∃ r' ∈ rows, ∃ n', r'.firstName = some n' ∧ (textEq (collapse n') p = true ∨
      ∃ p', p' <+: n' ∧ textEq p p' = true)

theorem head?_collapse : ∀ s : Text, (collapse s).head? = s.head?
  | [] => rfl
  | c :: s => by
    rw [collapse]
    split_ifs with h
    · rw [head?_collapse s, h.2, h.1, head?_cons]
    · rfl

theorem head?_replaceQuotes : ∀ s : Text, (replaceQuotes s).head? = s.head?
  | [] => rfl
  | [_] => rfl
  | c :: d :: s => by
    rw [replaceQuotes]
    split_ifs with h
    · rw [h.1, head?_cons, head?_cons]
    · rfl

theorem collapse_cons_congr {s t : Text} (hhead : s.head? = t.head?) (h : collapse s = collapse t)
    (c : Char) : collapse (c :: s) = collapse (c :: t) := by
  rw [collapse, collapse, hhead, h]

theorem collapse_replaceQuotes : ∀ s : Text, collapse (replaceQuotes s) = collapse s
  | [] => rfl
  | [_] => rfl
  | c :: d :: s => by
    rw [replaceQuotes]
    split_ifs with h
    · obtain ⟨rfl, rfl⟩ := h
      rw [collapse_cons_congr (head?_replaceQuotes s) (collapse_replaceQuotes s)]
      exact (if_pos ⟨rfl, rfl⟩).symm
    · exact collapse_cons_congr (head?_replaceQuotes _) (collapse_replaceQuotes _) c

theorem length_replaceQuotes_le : ∀ s : Text, (replaceQuotes s).length ≤ s.length
  | [] => Nat.le_refl _
  | [_] => Nat.le_refl _
  | c :: d :: s => by
    have h₁ := length_replaceQuotes_le s
    have h₂ := length_replaceQuotes_le (d :: s)
    rw [replaceQuotes]
    split_ifs <;> simp only [length_cons] at h₂ ⊢ <;> omega

theorem doubled_cons {c : Char} {s : Text} :
    Doubled (c :: s) ↔ (c = quote ∧ s.head? = some quote) ∨ Doubled s := by
  rw [Doubled, infix_cons_iff, cons_prefix_cons]
  refine or_congr (and_congr eq_comm ?_) Iff.rfl
  rcases s with _ | ⟨d, s⟩
  · simp
  · simp [eq_comm]

theorem length_replaceQuotes_lt : ∀ {s : Text}, Doubled s → (replaceQuotes s).length < s.length
  | [], h => by cases infix_nil.1 h
  | [c], h => by
    have := h.length_le
    simp at this
  | c :: d :: s, h => by
    rw [replaceQuotes]
    split_ifs with hq
    · have := length_replaceQuotes_le s
      simp only [length_cons]
      omega
    · rcases doubled_cons.1 h with hcd | h
      · exact absurd ⟨hcd.1, Option.some.inj hcd.2⟩ hq
      · have := length_replaceQuotes_lt h
        simp only [length_cons] at this ⊢
        omega

theorem collapse_of_not_doubled : ∀ {s : Text}, ¬ Doubled s → collapse s = s
  | [], _ => rfl
  | c :: s, h => by
    rw [doubled_cons, not_or] at h
    rw [collapse, if_neg h.1, collapse_of_not_doubled h.2]

theorem not_doubled_collapse : ∀ s : Text, ¬ Doubled (collapse s)
  | [] => by decide
  | c :: s => by
    rw [collapse]
    split_ifs with h
    · exact not_doubled_collapse s
    · rw [doubled_cons, head?_collapse, not_or]
      exact ⟨h, not_doubled_collapse s⟩

theorem not_doubled_of_notMem {s : Text} (h : quote ∉ s) : ¬ Doubled s :=
  fun hd => h (hd.subset mem_cons_self)

theorem collapse_map {f : Char → Char} (hf : ∀ c, f c = quote ↔ c = quote) :
    ∀ s : Text, collapse (s.map f) = (collapse s).map f
  | [] => rfl
  | c :: s => by
    have hhead : (s.map f).head? = some quote ↔ s.head? = some quote := by
      rcases s with _ | ⟨d, s⟩ <;> simp [hf]
    simp only [map_cons, collapse, hf, hhead, collapse_map hf s]
    split_ifs <;> rfl

theorem collapse_concat (c : Char) : ∀ s : Text,
    ∃ t, collapse (s ++ [c]) = t ++ [c] ∧ (c ≠ quote → t = collapse s)
  | [] => ⟨[], by simp [collapse], fun _ => rfl⟩
  | d :: s => by
    obtain ⟨t, ht, hts⟩ := collapse_concat c s
    have hhead (hc : c ≠ quote) : (s ++ [c]).head? = some quote ↔ s.head? = some quote := by
      rcases s with _ | ⟨e, s⟩ <;> simp [hc]
    rw [cons_append, collapse]
    split_ifs with h
    · refine ⟨t, ht, fun hc => ?_⟩
      rw [collapse, if_pos ⟨h.1, (hhead hc).1 h.2⟩, hts hc]
    · refine ⟨d :: t, by rw [ht, cons_append], fun hc => ?_⟩
      rw [collapse, if_neg fun h' => h ⟨h'.1, (hhead hc).2 h'.2⟩, hts hc]

theorem rtrim_collapse : rtrim (collapse s) = collapse (rtrim s) := by
  unfold rtrim
  induction s using List.reverseRecOn with
  | nil => rfl
  | append_singleton s c ih =>
    obtain ⟨t, ht, hts⟩ := collapse_concat c s
    by_cases hc : c = ' '
    · rw [ht, hts (hc ▸ by decide), rdropWhile_concat_pos _ _ _ (by simpa using hc),
        rdropWhile_concat_pos _ _ _ (by simpa using hc), ih]
    · rw [ht, rdropWhile_concat_neg _ _ _ (by simpa using hc),
        rdropWhile_concat_neg _ _ _ (by simpa using hc), ht]

theorem collate_collapse : collate (collapse s) = collapse (collate s) := by
  rw [collate, rtrim_collapse, collate, collapse_map]
  exact foldChar_eq_iff (by decide) (by decide +kernel)

theorem collapseRow_convertRow : collapseRow (convertRow r) = collapseRow r := by
  unfold convertRow collapseRow
  split_ifs
  · simp only [Option.map_map]
    congr 2
    exact funext collapse_replaceQuotes
  · rfl

theorem nameKey_collapseRow : nameKey (collapseRow r) = (nameKey r).map collapse := by
  simp only [nameKey, collapseRow, Option.map_map]
  congr 1
  exact funext collate_collapse

theorem unique_of_collapse {rows : List FirstNameRow}
    (h : Sql.Unique nameKey (rows.map collapseRow)) : Sql.Unique nameKey rows := by
  refine List.Nodup.of_map (Option.map collapse) ?_
  simpa only [Sql.Unique, map_map, Function.comp_def, nameKey_collapseRow] using h

def nameLength (r : FirstNameRow) : ℕ := (r.firstName.getD []).length

theorem nameLength_convertRow : nameLength (convertRow r) ≤ nameLength r ∧
    (r.firstName.any (Doubled ·) = true → nameLength (convertRow r) < nameLength r) := by
  rcases r with ⟨id, _ | n, isPartial⟩
  · exact ⟨Nat.le_refl _, nofun⟩
  · simp only [convertRow, nameLength, Option.any_some, decide_eq_true_eq]
    split_ifs with h
    · exact ⟨length_replaceQuotes_le n, fun _ => length_replaceQuotes_lt h⟩
    · exact ⟨Nat.le_refl _, fun h' => absurd h' h⟩

theorem map_collapseRow_eq {rows : List FirstNameRow}
    (h : ¬ rows.any (fun r => r.firstName.any (Doubled ·)) = true) :
    rows.map collapseRow = rows := by
  refine (map_congr_left fun r hr => ?_).trans (map_id rows)
  have hd := any_eq_false.1 (Bool.not_eq_true _ ▸ h) r hr
  rcases r with ⟨id, _ | n, isPartial⟩
  · rfl
  · simp only [Option.any_some, decide_eq_true_eq] at hd
    simp only [collapseRow, Option.map_some, collapse_of_not_doubled hd, id_eq]

theorem convert_spec : ∀ (fuel : ℕ) {rows : List FirstNameRow}, Sql.Unique nameKey rows →
    (convert fuel rows = none ∧ fuel ≤ (rows.map nameLength).sum) ∨ convert fuel rows =
      some (if Sql.Unique nameKey (rows.map collapseRow) then .ok (rows.map collapseRow)
        else .error .sql)
  | 0, _, _ => .inl ⟨rfl, Nat.zero_le _⟩
  | fuel + 1, rows, hu => by
    have hcollapse : (rows.map convertRow).map collapseRow = rows.map collapseRow := by
      rw [map_map]
      exact map_congr_left fun r _ => collapseRow_convertRow r
    rw [convert]
    by_cases hany : rows.any (fun r => r.firstName.any (Doubled ·)) = true
    · rw [if_pos hany]
      by_cases hu' : Sql.Unique nameKey (rows.map convertRow)
      · have hlt : ((rows.map convertRow).map nameLength).sum < (rows.map nameLength).sum := by
          obtain ⟨r, hr, hd⟩ := any_eq_true.1 hany
          rw [map_map]
          exact sum_lt_sum _ _ (fun r _ => (nameLength_convertRow r).1)
            ⟨r, hr, (nameLength_convertRow r).2 hd⟩
        rw [if_pos hu', ← hcollapse]
        exact (convert_spec fuel hu').imp_left fun h => ⟨h.1, by omega⟩
      · rw [if_neg hu', if_neg fun hc => hu' (unique_of_collapse (hcollapse ▸ hc))]
        exact .inr rfl
    · rw [if_neg hany, map_collapseRow_eq hany, if_pos hu]
      exact .inr rfl

section Complete

variable {scan : Scan} {rows rows' : List FirstNameRow} {r : FirstNameRow}

structure Extends (rows rows' : List FirstNameRow) : Prop where
  kept : ∀ r ∈ rows, r ∈ rows'
  added : ∀ r ∈ rows', r ∈ rows ∨ r.isPartial = some true ∧ (∀ r₀ ∈ rows, r.id ≠ r₀.id) ∧
    ∃ r₀ ∈ rows, ∃ n p, r₀.firstName = some n ∧ p <+: n ∧ p ≠ [] ∧ r.firstName = some p
  names : Sql.Unique nameKey rows'

theorem Extends.trans {rows'' : List FirstNameRow} (h : Extends rows rows')
    (h' : Extends rows' rows'') : Extends rows rows'' := by
  refine ⟨fun r hr => h'.kept r (h.kept r hr), fun r hr => ?_, h'.names⟩
  rcases h'.added r hr with hr | ⟨hp, hid, r₁, hr₁, n, p, hn, hpre, hne, hname⟩
  · exact h.added r hr
  · refine .inr ⟨hp, fun r₀ hr₀ => hid r₀ (h.kept r₀ hr₀), ?_⟩
    rcases h.added r₁ hr₁ with hr₁ | ⟨-, -, r₀, hr₀, n₀, p₀, hn₀, hpre₀, -, hname₀⟩
    · exact ⟨r₁, hr₁, n, p, hn, hpre, hne, hname⟩
    · rw [hn, Option.some.injEq] at hname₀
      exact ⟨r₀, hr₀, n₀, p, hn₀, hpre.trans (hname₀ ▸ hpre₀), hne, hname⟩

theorem lacks_iff {n : Text} : lacks rows n = true ↔
    1 < len n ∧ ∀ r ∈ rows, nameKey r ≠ some (collate (prior n)) := by
  simp only [lacks, Bool.and_eq_true, decide_eq_true_eq, Bool.not_eq_true', any_eq_false,
    Bool.not_eq_true]
  refine and_congr_right fun _ => forall₂_congr fun r _ => ?_
  rcases r with ⟨id, _ | m, isPartial⟩
  · simp [nameKey]
  · simp [nameKey, textEq]

theorem mem_missing {p : Text} (h : p ∈ missing scan rows) :
    ∃ r ∈ rows, ∃ n, r.firstName = some n ∧ lacks rows n = true ∧ p = prior n := by
  obtain ⟨r, hr, hp⟩ := mem_filterMap.1 (mem_of_mem_distinctOn h)
  obtain ⟨n, hn, rfl⟩ := Option.map_eq_some_iff.1 hp
  obtain ⟨hn, hl⟩ := Option.filter_eq_some_iff.1 hn
  exact ⟨r, (scan rows).2.mem_iff.1 hr, n, hn, hl, rfl⟩

theorem exists_mem_missing (scan : Scan) (hr : r ∈ rows) {n : Text}
    (hn : r.firstName = some n) (hl : lacks rows n = true) :
    ∃ p ∈ missing scan rows, collate p = collate (prior n) := by
  refine exists_mem_distinctOn (mem_filterMap.2 ⟨r, (scan rows).2.mem_iff.2 hr, ?_⟩)
  rw [hn, Option.filter_some, if_pos hl, Option.map_some]

theorem mem_insertPartial {names : List Text} (h : r ∈ insertPartial rows names) :
    r ∈ rows ∨ ∃ p ∈ names, (∀ r₀ ∈ rows, r.id ≠ r₀.id) ∧ r.firstName = some p ∧
      r.isPartial = some true := by
  refine (mem_append.1 h).imp_right fun h => ?_
  obtain ⟨p, hp, i, hi, rfl⟩ := mem_identity h
  refine ⟨p, hp, fun r₀ hr₀ => ?_, rfl, rfl⟩
  have hle : r₀.id ≤ maxFrom 0 (rows.map (·.id)) := le_maxFrom (mem_map_of_mem hr₀)
  show i ≠ r₀.id
  omega

theorem extends_insertPartial (scan : Scan) (h : Sql.Unique nameKey rows) :
    Extends rows (insertPartial rows (missing scan rows)) where
  kept r hr := mem_append_left _ hr
  added r hr := by
    refine (mem_insertPartial hr).imp_right ?_
    rintro ⟨p, hp, hid, hname, hmarked⟩
    obtain ⟨r₀, hr₀, n, hn, hl, rfl⟩ := mem_missing hp
    refine ⟨hmarked, hid, r₀, hr₀, n, _, hn, take_prefix _ n, fun hnil => ?_, hname⟩
    have hlen := (lacks_iff.1 hl).1
    have hle := (List.rdropWhile_prefix (· == ' ') n).length_le
    have := congrArg List.length hnil
    simp only [length_take, length_nil] at this
    simp only [len, rtrim] at hlen this
    omega
  names := by
    refine h.append ?_ fun a ha b hb => ?_
    · have hnodup : Sql.Unique collate (missing scan rows) := unique_distinctOn _
      have hkeys : ∀ n i, nameKey (partialRow n i) = some (collate n) := fun _ _ => rfl
      rw [Sql.Unique, map_identity hkeys, ← Function.comp_def, ← map_map]
      exact List.Nodup.map (Option.some_injective _) hnodup
    · obtain ⟨p, hp, i, -, rfl⟩ := mem_identity hb
      obtain ⟨r₀, -, n, -, hl, rfl⟩ := mem_missing hp
      exact (lacks_iff.1 hl).2 a ha

theorem complete_spec (scan : Scan) : ∀ (fuel : ℕ) {rows : List FirstNameRow} (bound : ℕ),
    Sql.Unique nameKey rows →
    (∀ r ∈ rows, ∀ n, r.firstName = some n → lacks rows n = true → len n ≤ bound) →
    (complete scan fuel rows = none ∧ fuel ≤ bound) ∨
      ∃ rows', complete scan fuel rows = some (.ok rows') ∧ Extends rows rows' ∧
        missing scan rows' = []
  | 0, _, _, _, _ => .inl ⟨rfl, Nat.zero_le _⟩
  | fuel + 1, rows, bound, hu, hbound => by
    rw [complete]
    by_cases hnil : missing scan rows = []
    · rw [if_pos hnil]
      exact .inr ⟨rows, rfl, ⟨fun _ h => h, fun _ h => .inl h, hu⟩, hnil⟩
    · have hext := extends_insertPartial scan hu
      obtain ⟨p, hp⟩ := exists_mem_of_ne_nil _ hnil
      obtain ⟨r, hr, n, hn, hl, -⟩ := mem_missing hp
      have hlen := hbound r hr n hn hl
      have hone := (lacks_iff.1 hl).1
      have hnext : ∀ r ∈ insertPartial rows (missing scan rows), ∀ n, r.firstName = some n →
          lacks (insertPartial rows (missing scan rows)) n = true → len n ≤ bound - 1 := by
        intro r hr n hn hl
        rcases mem_insertPartial hr with hr | ⟨p, hp, -, hname, -⟩
        · -- The start of a name that was there has been added.
          have hold : lacks rows n = true :=
            lacks_iff.2 ⟨(lacks_iff.1 hl).1, fun a ha => (lacks_iff.1 hl).2 a (hext.kept a ha)⟩
          obtain ⟨p, hp, hcollate⟩ := exists_mem_missing scan hr hn hold
          obtain ⟨i, hi⟩ : ∃ i, partialRow p i ∈ identity partialRow
              (1 + maxFrom 0 (rows.map (·.id))) (missing scan rows) := exists_mem_identity hp
          exact absurd (congrArg some hcollate)
            ((lacks_iff.1 hl).2 _ (mem_append_right _ hi))
        · obtain ⟨r₀, hr₀, n₀, hn₀, hl₀, rfl⟩ := mem_missing hp
          rw [hn, Option.some.injEq] at hname
          have hle := hbound r₀ hr₀ n₀ hn₀ hl₀
          have hlen := (List.rdropWhile_prefix (· == ' ') n).length_le
          rw [hname, prior, length_take] at hlen
          rw [hname, prior]
          unfold len rtrim at *
          omega
      rw [if_neg hnil, if_pos hext.names]
      rcases complete_spec scan fuel (bound - 1) hext.names hnext with
        ⟨hnone, hle⟩ | ⟨rows', h, hext', hnil'⟩
      · exact .inl ⟨hnone, by omega⟩
      · exact .inr ⟨rows', h, hext.trans hext', hnil'⟩

theorem rtrim_take_rtrim (s : Text) (k : ℕ) : rtrim ((rtrim s).take k) = rtrim (s.take k) := by
  obtain ⟨b, hs, hb⟩ := exists_rtrim_append s
  conv_rhs => rw [hs, take_append]
  rw [rtrim_append_blanks fun c hc => hb c (mem_of_mem_take hc)]

theorem collate_take (n : Text) (k : ℕ) : collate (n.take k) = rtrim ((collate n).take k) := by
  rw [collate, collate, ← map_take, rtrim_map foldChar_eq_blank, rtrim_take_rtrim]

theorem named_take (h : missing scan rows = []) (hr : r ∈ rows) {n : Text}
    (hn : r.firstName = some n) {k : ℕ} (hk : 1 ≤ k) :
    ∃ r' ∈ rows, nameKey r' = some (collate (n.take k)) := by
  induction hlen : len n using Nat.strong_induction_on generalizing r n with
  | _ l ih =>
    by_cases hlt : k < len n
    · obtain ⟨r', hr', hc'⟩ : ∃ r' ∈ rows, nameKey r' = some (collate (prior n)) := by
        by_contra hnone
        have hl : lacks rows n = true :=
          lacks_iff.2 ⟨by omega, fun r' hr' hc' => hnone ⟨r', hr', hc'⟩⟩
        obtain ⟨p, hp, -⟩ := exists_mem_missing scan hr hn hl
        rw [h] at hp
        cases hp
      obtain ⟨m, hm, hc⟩ := Option.map_eq_some_iff.1 hc'
      have hprior : len m < l := by
        have hle := (List.rdropWhile_prefix (· == ' ') (prior n)).length_le
        have hlen' := congrArg List.length hc
        simp only [collate, length_map] at hlen'
        simp only [prior, length_take] at hle
        simp only [len, rtrim, prior] at *
        omega
      have htake : collate (m.take k) = collate (n.take k) := by
        rw [collate_take, hc, ← collate_take, prior, take_take, min_eq_left (by omega)]
      rw [← htake]
      exact ih _ hprior hr' hm rfl
    · refine ⟨r, hr, ?_⟩
      rw [nameKey, hn, Option.map_some, collate, collate, rtrim_take (not_lt.1 hlt)]

end Complete

section Completes

variable {rows rows' : List FirstNameRow} {scan : Scan} {r : FirstNameRow}

theorem mem_of_extends (h : Extends (rows.map collapseRow) rows') (hr : r ∈ rows') :
    (∃ r₀ ∈ rows, r = collapseRow r₀) ∨ r.isPartial = some true ∧ (∀ r₀ ∈ rows, r.id ≠ r₀.id) ∧
      ∃ r₀ ∈ rows, ∃ n p, r₀.firstName = some n ∧ p <+: collapse n ∧ p ≠ [] ∧
        r.firstName = some p := by
  rcases h.added r hr with hr | ⟨hmarked, hid, r₁, hr₁, n, p, hn, hpre, hne, hp⟩
  · obtain ⟨r₀, hr₀, rfl⟩ := mem_map.1 hr
    exact .inl ⟨r₀, hr₀, rfl⟩
  · obtain ⟨r₀, hr₀, rfl⟩ := mem_map.1 hr₁
    obtain ⟨n₀, hn₀, rfl⟩ := Option.map_eq_some_iff.1 hn
    exact .inr ⟨hmarked, fun a ha => hid (collapseRow a) (mem_map_of_mem ha), r₀, hr₀, n₀, p,
      hn₀, hpre, hne, hp⟩

theorem named_prefix (hnil : missing scan rows' = [])
    (hr : r ∈ rows') {n p : Text} (hn : r.firstName = some n) (hpre : p <+: n) (hne : p ≠ []) :
    ∃ r' ∈ rows', ∃ n', r'.firstName = some n' ∧ textEq n' p = true := by
  obtain ⟨r', hr', hname⟩ := named_take hnil hr hn (length_pos_of_ne_nil hne)
  obtain ⟨n', hn', hc⟩ := Option.map_eq_some_iff.1 hname
  rw [← prefix_iff_eq_take.1 hpre] at hc
  exact ⟨r', hr', n', hn', textEq_iff.2 hc⟩

theorem completed_of_extends (h : Extends (rows.map collapseRow) rows')
    (hnil : missing scan rows' = []) (hc : Convertible rows) : Completed rows rows' where
  quotes r hr n hn hd := by
    rcases mem_of_extends h hr with ⟨r₀, -, rfl⟩ | ⟨-, -, r₀, -, m, p, -, hpre, -, hp⟩
    · obtain ⟨m, -, rfl⟩ := Option.map_eq_some_iff.1 hn
      exact not_doubled_collapse m hd
    · rw [hn, Option.some.injEq] at hp
      exact not_doubled_collapse m (hd.trans (hp ▸ hpre.isInfix))
  prefixes r hr n p hn hpre hne _ := by
    obtain ⟨r', hr', n', hn', heq⟩ := named_prefix hnil hr hn hpre hne
    exact ⟨r', hr', by rw [hn', Option.any_some, heq]⟩
  kept r hr hq := by
    have hself : collapseRow r = r := by
      rcases r with ⟨id, _ | n, isPartial⟩
      · rfl
      · simp only [collapseRow, Option.map_some,
          collapse_of_not_doubled (not_doubled_of_notMem (hq n rfl))]
    exact h.kept r (mem_map.2 ⟨r, hr, hself⟩)
  added r hr hid := by
    rcases mem_of_extends h hr with ⟨r₀, hr₀, rfl⟩ | ⟨hmarked, -, r₀, hr₀, n, p, hn, hpre, hne, hp⟩
    · exact absurd rfl (hid r₀ hr₀)
    · obtain ⟨r₁, hr₁, n₁, hn₁, heq | ⟨p', hp', heq⟩⟩ := hc.prefixes r₀ hr₀ n p hn hpre hne
      · -- It would be a name twice.
        have hkey : nameKey (collapseRow r₁) = nameKey r := by
          rw [nameKey, nameKey, hp, collapseRow, hn₁]
          exact congrArg some (textEq_iff.1 heq)
        have hsame := h.names.eq (h.kept _ (mem_map_of_mem hr₁)) hr hkey
        exact absurd (congrArg FirstNameRow.id hsame).symm (hid r₁ hr₁)
      · exact ⟨hmarked, r₁, hr₁, n₁, p', p, hn₁, hp', hp, heq⟩

theorem convertible_of_completed (h : Extends (rows.map collapseRow) rows')
    (hnil : missing scan rows' = []) (hnames : Sql.Unique nameKey (rows.map collapseRow))
    (hc : Completed rows rows') : Convertible rows := by
  refine ⟨hnames, fun r hr n p hn hpre hne => ?_⟩
  have hr' := h.kept (collapseRow r) (mem_map_of_mem hr)
  obtain ⟨r₁, hr₁, n₁, hn₁, heq⟩ :=
    named_prefix hnil hr' (congrArg (Option.map collapse) hn) hpre hne
  rcases mem_of_extends h hr₁ with ⟨r₀, hr₀, rfl⟩ | ⟨-, hid, -⟩
  · obtain ⟨n₀, hn₀, rfl⟩ := Option.map_eq_some_iff.1 hn₁
    exact ⟨r₀, hr₀, n₀, hn₀, .inl heq⟩
  · obtain ⟨-, r₀, hr₀, n₀, p', n', hn₀, hp', hn', heq'⟩ := hc.added r₁ hr₁ hid
    obtain rfl := Option.some.inj (hn₁.symm.trans hn')
    exact ⟨r₀, hr₀, n₀, hn₀, .inr ⟨p', hp', textEq_trans (textEq_symm heq) heq'⟩⟩

theorem converted_of_ok {fuel : ℕ} (hnames : Sql.Unique nameKey rows)
    (h : spFirstNameCreatePartial scan fuel rows = some (.ok rows')) :
    Sql.Unique nameKey (rows.map collapseRow) ∧
      complete scan fuel (rows.map collapseRow) = some (.ok rows') := by
  unfold spFirstNameCreatePartial at h
  rcases convert_spec fuel hnames with ⟨hconv, -⟩ | hconv
  · rw [hconv] at h
    cases h
  · rw [hconv] at h
    split_ifs at h with hu
    · exact ⟨hu, h⟩
    · cases h

theorem len_le_sum (hr : r ∈ rows) {n : Text} (hn : r.firstName = some n) :
    len n ≤ (rows.map nameLength).sum := by
  have hmem : nameLength r ∈ rows.map nameLength := mem_map_of_mem hr
  have hle := single_le_sum (fun _ _ => Nat.zero_le _) _ hmem
  have hlen := (List.rdropWhile_prefix (· == ' ') n).length_le
  simp only [nameLength, hn, Option.getD_some] at hle
  exact hlen.trans hle

/-- The procedure completes the names, however the server scans them, exactly if they are
convertible. -/
theorem completes_iff (scan : Scan) (hnames : Sql.Unique nameKey rows) :
    Completes scan rows ↔ Convertible rows := by
  constructor
  · rintro ⟨fuel, rows', hsp, hc⟩
    obtain ⟨hu, hsp⟩ := converted_of_ok hnames hsp
    rcases complete_spec scan fuel _ hu fun _ hr _ hn _ => len_le_sum hr hn with
      ⟨hnone, -⟩ | ⟨rows'', h, hext, hnil⟩
    · rw [hnone] at hsp
      cases hsp
    · rw [h] at hsp
      obtain rfl := Except.ok.inj (Option.some.inj hsp)
      exact convertible_of_completed hext hnil hu hc
  · intro hc
    obtain ⟨fuel, hfuel⟩ : ∃ fuel, fuel =
        (rows.map nameLength).sum + ((rows.map collapseRow).map nameLength).sum + 1 := ⟨_, rfl⟩
    rcases convert_spec fuel hnames with ⟨-, hle⟩ | hconv
    · omega
    rcases complete_spec scan fuel _ hc.names fun _ hr _ hn _ => len_le_sum hr hn with
      ⟨-, hle⟩ | ⟨rows', h, hext, hnil⟩
    · omega
    rw [if_pos hc.names] at hconv
    refine ⟨fuel, rows', ?_, completed_of_extends hext hnil hc⟩
    rw [spFirstNameCreatePartial, hconv]
    exact h

theorem completes_partial : Completes (fun rows => ⟨rows, .refl _⟩)
    [⟨1, some "Jo".toList, none⟩] := by
  refine (completes_iff _ (by decide)).2 ⟨by decide, fun r hr n p hn hpre hne => ?_⟩
  obtain rfl := mem_singleton.1 hr
  obtain rfl := Option.some.inj hn
  exact ⟨_, mem_singleton_self _, _, rfl, .inr ⟨p, hpre, textEq_self p⟩⟩

theorem quotes_not_completed : Sql.Unique nameKey
    [⟨1, some "O''Neil".toList, none⟩, ⟨2, some "O'Neil".toList, none⟩] ∧
    ¬ Completes (fun rows => ⟨rows, .refl _⟩)
      [⟨1, some "O''Neil".toList, none⟩, ⟨2, some "O'Neil".toList, none⟩] := by
  refine ⟨by decide, ?_⟩
  rintro ⟨fuel, rows', hsp, -⟩
  exact absurd (converted_of_ok (by decide) hsp).1 (by decide)

end Completes

end AciX.Partial
