import AciX.Except
import AciX.Sql.Text

/-!
# Composite formats and named placeholders

`String.Format` reads a text from left to right: a brace is written twice, and `\x7bi,w:f\x7d`
stands for the argument `i`, at least `w` wide and written in the format `f`. `fill` puts values for
names in braces, all at once. Filling one more name is filling them together if no earlier value has
a brace or stands in the name (`fill_fill`).
-/

namespace AciX

open List

def noBraces (s : Text) : Bool := s.all fun c => c ≠ '\x7b' && c ≠ '\x7d'

/-- `String.Replace`, which goes on after what it replaced; the number counts what is left of it. -/
def replaceLoop (old new : Text) : ℕ → Text → Text
  | _, [] => []
  | n + 1, _ :: s => replaceLoop old new n s
  | 0, c :: s =>
    if old.isPrefixOf (c :: s) then new ++ replaceLoop old new (old.length - 1) s
    else c :: replaceLoop old new 0 s

def replaceAll (s old new : Text) : Text := replaceLoop old new 0 s

theorem replaceLoop_eq_drop (old new : Text) :
    ∀ (n : ℕ) (s : Text), replaceLoop old new n s = replaceAll (s.drop n) old new
  | 0, _ => rfl
  | _ + 1, [] => rfl
  | n + 1, _ :: s => replaceLoop_eq_drop old new n s

theorem replaceAll_cons (c : Char) (s old new : Text) :
    replaceAll (c :: s) old new = if old.isPrefixOf (c :: s) then
      new ++ replaceAll (s.drop (old.length - 1)) old new else c :: replaceAll s old new := by
  rw [← replaceLoop_eq_drop]
  rfl

section Fill

theorem noBraces_cons {c : Char} {s : Text} :
    noBraces (c :: s) = true ↔ (c ≠ '\x7b' ∧ c ≠ '\x7d') ∧ noBraces s = true := by
  simp [noBraces]

theorem noBraces_append {s t : Text} :
    noBraces (s ++ t) = true ↔ noBraces s = true ∧ noBraces t = true := by
  simp [noBraces]

def nameAt (s : Text) : Option Text :=
  match s with
  | [] => none
  | c :: s => if c = '\x7d' then some [] else if c = '\x7b' then none else (nameAt s).map (c :: ·)

theorem nameAt_eq_some : ∀ {s k : Text},
    nameAt s = some k ↔ noBraces k = true ∧ ∃ r, s = k ++ '\x7d' :: r
  | [], k => by simp [nameAt]
  | c :: s, k => by
    unfold nameAt
    split_ifs with hc hc'
    · subst hc
      cases k with
      | nil => simp [noBraces]
      | cons d k =>
        simp only [Option.some.injEq, nil_eq, reduceCtorEq, noBraces_cons, cons_append,
          List.cons.injEq, false_iff, not_and, not_exists]
        rintro ⟨⟨-, hd⟩, -⟩ r rfl
        exact absurd rfl hd
    · subst hc'
      cases k with
      | nil => simp
      | cons d k =>
        simp only [noBraces_cons, cons_append, List.cons.injEq, false_iff, not_and, not_exists]
        rintro ⟨⟨hd, -⟩, -⟩ r rfl
        exact absurd rfl hd
    · cases k with
      | nil => simp [hc]
      | cons d k =>
        simp only [Option.map_eq_some_iff, nameAt_eq_some (s := s), List.cons.injEq, noBraces_cons,
          cons_append]
        constructor
        · rintro ⟨k', ⟨hk, r, rfl⟩, rfl, rfl⟩
          exact ⟨⟨⟨hc', hc⟩, hk⟩, r, rfl, rfl⟩
        · rintro ⟨⟨-, hk⟩, r, rfl, rfl⟩
          exact ⟨k, ⟨hk, r, rfl⟩, rfl, rfl⟩

theorem nameAt_append {k : Text} (h : noBraces k = true) (r : Text) :
    nameAt (k ++ '\x7d' :: r) = some k :=
  nameAt_eq_some.2 ⟨h, r, rfl⟩

theorem fill_induction {P : Text → Prop} (nil : P [])
    (char : ∀ c s, (c = '\x7b' → nameAt s = none) → P s → P (c :: s))
    (name : ∀ w s, noBraces w = true → P s → P ('\x7b' :: (w ++ '\x7d' :: s))) : ∀ s, P s := by
  intro s
  induction hn : s.length using Nat.strong_induction_on generalizing s with
  | _ n ih =>
    subst hn
    cases s with
    | nil => exact nil
    | cons c s =>
      by_cases hc : c = '\x7b' → nameAt s = none
      · exact char c s hc (ih _ (by simp) s rfl)
      · rw [Classical.not_imp] at hc
        obtain ⟨rfl, hs⟩ := hc
        obtain ⟨w, hs⟩ := Option.ne_none_iff_exists'.1 hs
        obtain ⟨hw, r, rfl⟩ := nameAt_eq_some.1 hs
        exact name w r hw (ih _ (by simp; omega) r rfl)

def fillLoop (values : Text → Option Text) : ℕ → Text → Text
  | _, [] => []
  | n + 1, _ :: s => fillLoop values n s
  | 0, c :: s =>
    match if c = '\x7b' then (nameAt s).bind fun name => (values name).map (name, ·) else none with
    | some (name, value) => value ++ fillLoop values (name.length + 1) s
    | none => c :: fillLoop values 0 s

def fill (values : Text → Option Text) (s : Text) : Text := fillLoop values 0 s

variable {values : Text → Option Text} {k v w s : Text}

theorem fillLoop_eq_drop (values : Text → Option Text) :
    ∀ (n : ℕ) (s : Text), fillLoop values n s = fill values (s.drop n)
  | 0, _ => rfl
  | _ + 1, [] => rfl
  | n + 1, _ :: s => fillLoop_eq_drop values n s

@[simp] theorem fill_nil : fill values [] = [] := rfl

theorem fill_cons {c : Char} (h : ∀ w, c = '\x7b' → nameAt s = some w → values w = none) :
    fill values (c :: s) = c :: fill values s := by
  have hn : (if c = '\x7b' then (nameAt s).bind fun name => (values name).map (name, ·) else none)
      = none := by
    split_ifs with hc
    · rcases hw : nameAt s with _ | w
      · rfl
      · simp [h w hc hw]
    · rfl
  rw [fill, fillLoop, hn]
  rfl

theorem fill_cons_of_none {c : Char} (h : c = '\x7b' → nameAt s = none) :
    fill values (c :: s) = c :: fill values s := by
  refine fill_cons fun w hc hw => ?_
  rw [h hc] at hw
  cases hw

theorem fill_name (hw : noBraces w = true) (hv : values w = some v) :
    fill values ('\x7b' :: (w ++ '\x7d' :: s)) = v ++ fill values s := by
  rw [fill, fillLoop, if_pos rfl, nameAt_append hw]
  simp only [Option.bind_some, hv, Option.map_some]
  rw [fillLoop_eq_drop]
  simp [← drop_drop]

theorem fill_append : ∀ {t : Text}, noBraces t = true → ∀ (values : Text → Option Text) (s : Text),
    fill values (t ++ s) = t ++ fill values s
  | [], _, _, _ => rfl
  | c :: t, h, values, s => by
    obtain ⟨⟨hc, -⟩, ht⟩ := noBraces_cons.1 h
    rw [cons_append, fill_cons_of_none (absurd · hc), fill_append ht, cons_append]

theorem fill_name_of_none (hw : noBraces w = true) (hv : values w = none) :
    fill values ('\x7b' :: (w ++ '\x7d' :: s)) = '\x7b' :: (w ++ '\x7d' :: fill values s) := by
  rw [fill_cons, fill_append hw, fill_cons_of_none fun h => absurd h (by decide)]
  intro w' _ hw'
  rw [nameAt_append hw, Option.some.injEq] at hw'
  rwa [← hw']

def single (k v : Text) : Text → Option Text := fun w => if w = k then some v else none

def braced (k : Text) : Text := '\x7b' :: (k ++ ['\x7d'])

theorem fill_braced_append (hw : noBraces w = true) (values : Text → Option Text) (s : Text) :
    fill values (braced w ++ s) = (values w).getD (braced w) ++ fill values s := by
  have hs : braced w ++ s = '\x7b' :: (w ++ '\x7d' :: s) := by simp [braced]
  rcases hv : values w with _ | v
  · rw [hs, fill_name_of_none hw hv]
    simp [braced]
  · rw [hs, fill_name hw hv, Option.getD_some]

section

variable (hk : noBraces k = true)
include hk

theorem fill_open (values : Text → Option Text) (s : Text) :
    fill values ('\x7b' :: (k ++ '\x7b' :: s)) = '\x7b' :: (k ++ fill values ('\x7b' :: s)) := by
  rw [fill_cons_of_none, fill_append hk]
  intro _
  induction k with
  | nil => rfl
  | cons c k ih =>
    obtain ⟨⟨hopen, hclose⟩, hk⟩ := noBraces_cons.1 hk
    rw [cons_append, nameAt, if_neg hclose, if_neg hopen, ih hk]
    rfl

theorem isPrefixOf_braced (c : Char) (s : Text) :
    (braced k).isPrefixOf (c :: s) = true ↔ c = '\x7b' ∧ nameAt s = some k := by
  simp only [braced, List.isPrefixOf_iff_prefix, cons_prefix_cons, nameAt_eq_some, hk, true_and]
  constructor
  · rintro ⟨rfl, r, rfl⟩
    exact ⟨rfl, r, by simp⟩
  · rintro ⟨rfl, r, rfl⟩
    exact ⟨rfl, r, by simp⟩

theorem replaceAll_braced (v s : Text) :
    replaceAll s (braced k) v = fill (single k v) s := by
  induction hn : s.length using Nat.strong_induction_on generalizing s with
  | _ n ih =>
    subst hn
    cases s with
    | nil => rfl
    | cons c s =>
      rw [replaceAll_cons]
      split_ifs with hp
      · obtain ⟨rfl, hs⟩ := (isPrefixOf_braced hk c s).1 hp
        obtain ⟨-, r, rfl⟩ := nameAt_eq_some.1 hs
        have hdrop : (k ++ '\x7d' :: r).drop ((braced k).length - 1) = r := by
          simp [braced, ← drop_drop]
        rw [hdrop, fill_name hk (if_pos rfl), ih _ (by simp; omega) r rfl]
      · rw [isPrefixOf_braced hk] at hp
        rw [ih _ (by simp) s rfl, fill_cons]
        intro w hc hw
        refine if_neg ?_
        rintro rfl
        exact hp ⟨hc, hw⟩

end

theorem nameAt_fill (hv : ∀ w v, values w = some v → noBraces v = true) :
    ∀ {s k : Text}, nameAt (fill values s) = some k →
      nameAt s = some k ∨ ∃ w v, values w = some v ∧ v <:+: k := by
  intro s
  induction s using fill_induction with
  | nil => exact fun h => .inl h
  | char c s hc ih =>
    intro k h
    rw [fill_cons_of_none hc] at h
    unfold nameAt at h ⊢
    split_ifs at h ⊢ with h1 h2
    · exact .inl h
    · obtain ⟨k, hk, rfl⟩ := Option.map_eq_some_iff.1 h
      rcases ih hk with hs | ⟨w, v, hw, hin⟩
      · exact .inl (by rw [hs]; rfl)
      · exact .inr ⟨w, v, hw, hin.trans (suffix_cons c k).isInfix⟩
  | name w s hw ih =>
    intro k h
    rcases hval : values w with _ | v
    · rw [fill_name_of_none hw hval] at h
      simp [nameAt] at h
    · rw [fill_name hw hval] at h
      obtain ⟨hk, r, hr⟩ := nameAt_eq_some.1 h
      refine .inr ⟨w, v, hval, List.IsPrefix.isInfix ?_⟩
      have hvb := hv w v hval
      rcases append_eq_append_iff.1 hr with ⟨t, rfl, -⟩ | ⟨t, rfl, ht⟩
      · exact prefix_append v t
      · cases t with
        | nil => simp
        | cons c t =>
          obtain ⟨rfl, -⟩ := List.cons.inj ht
          simp [noBraces] at hvb

theorem fill_fill (hv : ∀ w v', values w = some v' → noBraces v' = true ∧ ¬v' <:+: k) (v s : Text) :
    fill (single k v) (fill values s) = fill (fun w => (values w).or (single k v w)) s := by
  induction s using fill_induction with
  | nil => rfl
  | char c s hc ih =>
    rw [fill_cons_of_none hc, fill_cons_of_none hc, ← ih, fill_cons]
    intro w hopen hw
    refine if_neg ?_
    rintro rfl
    rcases nameAt_fill (fun w v hw => (hv w v hw).1) hw with hs | ⟨w', v', hw', hin⟩
    · rw [hc hopen] at hs
      cases hs
    · exact (hv w' v' hw').2 hin
  | name w s hw ih =>
    rcases hval : values w with _ | v'
    · rw [fill_name_of_none hw hval]
      by_cases hwk : w = k
      · subst hwk
        rw [fill_name hw (if_pos rfl), fill_name (v := v) hw (by simp [hval, single]), ih]
      · rw [fill_name_of_none hw (if_neg hwk), fill_name_of_none hw (by simp [hval, single, hwk]),
          ih]
    · rw [fill_name hw hval, fill_append (hv w v' hval).1, fill_name hw (by rw [hval]; rfl), ih]

theorem mem_fill_blank (hv : ∀ w v, values w = some v → noBraces v = true) (s : Text) :
    '\x7b' ∈ fill (fun w => (values w).map fun _ => []) s ↔ '\x7b' ∈ fill values s := by
  induction s using fill_induction with
  | nil => rfl
  | char c s hc ih => rw [fill_cons_of_none hc, fill_cons_of_none hc, mem_cons, mem_cons, ih]
  | name w s hw ih =>
    rcases hval : values w with _ | v
    · rw [fill_name_of_none hw hval, fill_name_of_none hw (by rw [hval]; rfl)]
      simp
    · have hb : '\x7b' ∉ v := by
        intro hmem
        simpa [noBraces, hmem] using all_eq_true.1 (hv w v hval) _ hmem
      rw [fill_name hw hval, fill_name hw (by rw [hval]; rfl), nil_append, mem_append, ih]
      simp [hb]

end Fill

section Format

inductive FormatError where
  | badFormat
  | outOfRange
  | badValue (message : Text)

def FormatError.message : FormatError → Text
  | .badFormat => "Input string was not in a correct format.".toList
  | .outOfRange => ("Index (zero based) must be greater than or equal to zero and less than the " ++
      "size of the argument list.").toList
  | .badValue message => message

def itemFormat : Text → Option (Text × Text)
  | [] => none
  | '\x7b' :: '\x7b' :: s => (itemFormat s).map fun (f, rest) => ('\x7b' :: f, rest)
  | '\x7b' :: _ => none
  | '\x7d' :: '\x7d' :: s => (itemFormat s).map fun (f, rest) => ('\x7d' :: f, rest)
  | '\x7d' :: s => some ([], s)
  | c :: s => (itemFormat s).map fun (f, rest) => (c :: f, rest)

def isDigit (c : Char) : Bool := '0' ≤ c && c ≤ '9'

def digitsValue (s : Text) : ℕ := s.foldl (fun n c => 10 * n + (c.toNat - '0'.toNat)) 0

structure Alignment where
  width : ℕ := 0
  left : Bool := false

def skipBlanks (s : Text) : Text := s.dropWhile (· = ' ')

def itemAlignment (s : Text) : Option (Alignment × Text) :=
  match s with
  | ',' :: s =>
    let s := skipBlanks s
    let left := s.head? = some '-'
    let s := if left then s.drop 1 else s
    let digits := s.takeWhile isDigit
    -- reading stops once the width is a million, and a digit that follows is out of place
    if digits = [] ∨ 1000000 ≤ digitsValue digits.dropLast then none
    else some ({ width := digitsValue digits, left := left }, skipBlanks (s.dropWhile isDigit))
  | s => some ({}, s)

def Alignment.pad (a : Alignment) (s : Text) : Text :=
  let blanks := List.replicate (a.width - s.length) ' '
  if a.left then s ++ blanks else blanks ++ s

variable {V : Type} (display : V → Text → Except FormatError Text) (args : List (Option V))

/-- The text of the item after an opening brace, and what follows its closing brace. A null is
written as nothing. -/
def formatItem (s : Text) : Except FormatError (Text × Text) :=
  let digits := s.takeWhile isDigit
  let s := s.dropWhile isDigit
  if digits = [] ∨ s = [] then .error .badFormat
  else
    match args[digitsValue digits]? with
    | none => .error .outOfRange
    | some arg =>
      match itemAlignment (skipBlanks s) with
      | none => .error .badFormat
      | some (alignment, s) =>
        let format := match s with
          | '\x7d' :: s => some ([], s)
          | ':' :: s => itemFormat s
          | _ => none
        match format with
        | none => .error .badFormat
        | some (format, rest) =>
          match arg with
          | none => .ok (alignment.pad [], rest)
          | some v => (display v format).map fun t => (alignment.pad t, rest)

def formatLoop : ℕ → Text → Except FormatError Text
  | _, [] => .ok []
  | n + 1, _ :: s => formatLoop n s
  | 0, c :: s =>
    if c = '\x7b' ∧ s.head? ≠ some '\x7b' then do
      let (t, rest) ← formatItem display args s
      return t ++ (← formatLoop (s.length - rest.length) s)
    else if c = '\x7b' ∨ c = '\x7d' then
      if s.head? = some c then return c :: (← formatLoop 1 s) else .error .badFormat
    else return c :: (← formatLoop 0 s)

def format (s : Text) : Except FormatError Text := formatLoop display args 0 s

def escape : Text → Text
  | [] => []
  | c :: s => if c = '\x7b' ∨ c = '\x7d' then c :: c :: escape s else c :: escape s

theorem escape_append : ∀ s t : Text, escape (s ++ t) = escape s ++ escape t
  | [], _ => rfl
  | c :: s, t => by
    simp only [cons_append, escape]
    split_ifs
    · rw [escape_append s t, cons_append, cons_append]
    · rw [escape_append s t, cons_append]

theorem length_le_escape : ∀ s : Text, s.length ≤ (escape s).length
  | [] => le_rfl
  | c :: s => by
    have := length_le_escape s
    unfold escape
    split_ifs
    · simp only [length_cons]
      omega
    · simpa using this

theorem escape_eq_self : ∀ {s : Text}, escape s = s ↔ noBraces s = true
  | [] => by simp [escape, noBraces]
  | c :: s => by
    unfold escape
    split_ifs with hc
    · have hlen := length_le_escape s
      constructor
      · intro h
        have := congrArg List.length h
        simp only [length_cons] at this
        omega
      · intro h
        exact absurd hc (not_or.2 (noBraces_cons.1 h).1)
    · rw [noBraces_cons, List.cons.injEq, escape_eq_self (s := s)]
      simp [not_or.1 hc]

theorem formatLoop_eq_drop : ∀ (n : ℕ) (s : Text),
    formatLoop display args n s = format display args (s.drop n)
  | 0, _ => rfl
  | _ + 1, [] => rfl
  | n + 1, _ :: s => formatLoop_eq_drop n s

theorem format_escape : ∀ s : Text, format display args (escape s) = .ok s
  | [] => rfl
  | c :: s => by
    have ih := format_escape s
    unfold escape
    split_ifs with hc
    · have hopen : ¬(c = '\x7b' ∧ (c :: escape s).head? ≠ some '\x7b') := by
        rintro ⟨rfl, h⟩
        exact h rfl
      rw [format, formatLoop, if_neg hopen, if_pos hc, if_pos (by rfl), formatLoop_eq_drop,
        drop_one, tail_cons, ih]
      rfl
    · rw [format, formatLoop, if_neg (fun h => hc (.inl h.1)), if_neg hc]
      change (do return c :: (← format display args (escape s))) = _
      rw [ih]
      rfl

theorem formatItem_nil (s : Text) : ∃ e, formatItem display [] s = .error e := by
  unfold formatItem
  simp only [getElem?_nil]
  split_ifs
  · exact ⟨_, rfl⟩
  · exact ⟨_, rfl⟩

theorem eq_escape_of_format {s t : Text} (h : format display [] s = .ok t) : s = escape t := by
  induction hn : s.length using Nat.strong_induction_on generalizing s t with
  | _ n ih =>
    subst hn
    cases s with
    | nil =>
      cases h
      rfl
    | cons c s =>
      rw [format, formatLoop] at h
      split_ifs at h with hitem hbrace hdouble
      · obtain ⟨e, he⟩ := formatItem_nil display s
        rw [he] at h
        cases h
      · obtain ⟨s, rfl⟩ : ∃ s', s = c :: s' := by
          cases s with
          | nil => cases hdouble
          | cons d s => exact ⟨s, by rw [Option.some.inj hdouble]⟩
        rw [formatLoop_eq_drop, drop_one, tail_cons] at h
        obtain ⟨u, hu, h⟩ := bind_ok_iff.1 h
        cases h
        rw [escape, if_pos hbrace, ← ih _ (by simp) hu rfl]
      · change (do return c :: (← format display [] s)) = Except.ok t at h
        obtain ⟨u, hu, h⟩ := bind_ok_iff.1 h
        cases h
        rw [escape, if_neg hbrace, ← ih _ (by simp) hu rfl]

theorem format_nil_iff {s t : Text} : format display [] s = .ok t ↔ s = escape t := by
  constructor
  · exact eq_escape_of_format display
  · rintro rfl
    exact format_escape display [] t

end Format

end AciX
