import AciX.Json.Syntax
import AciX.Search.Previews

/-!
# Text objects in a text

What the regular expression of `ConvertTextJson` does at each place of a JSON text: it passes over
what is not an object whose first key is written `_t` (`convert_cons`, `convert_str`,
`textObject_key`), and takes its value (`value_scalar`, `value_quoted`, `value_escaped`) or cuts it
(`value_cut`).
-/

namespace AciX.Json

open List

variable {c : Char} {s value rest : Text}

open Profile

theorem length_le_of_dropWhile {p : Char → Bool} {s rest : Text}
    (h : s.dropWhile p = c :: rest) : rest.length + 1 ≤ s.length := by
  have hle := length_dropWhile_le p s
  rwa [h] at hle

theorem length_plainValue (h : plainValue s = some (value, rest)) : rest.length ≤ s.length := by
  unfold plainValue at h
  split at h
  · rename_i hdrop
    cases h
    have := length_le_of_dropWhile hdrop
    omega
  · cases h

theorem length_quotedValue (h : quotedValue s = some (value, rest)) : rest.length ≤ s.length := by
  unfold quotedValue at h
  split at h
  · split at h
    · rename_i hdrop
      split at h
      · rename_i hdrop'
        cases h
        have := length_le_of_dropWhile hdrop
        have := length_le_of_dropWhile hdrop'
        simp only [length_cons]
        omega
      · cases h
    · cases h
  · cases h

theorem length_textObject
    (h : textObject (c :: s) = some (value, rest)) : rest.length ≤ s.length := by
  unfold textObject at h
  split at h
  · rename_i t heq
    cases heq
    split at h
    · rename_i u hkey
      split at h
      · rename_i x hcolon
        have hx : rest.length ≤ (x.dropWhile isSpace).length := by
          rcases Option.or_eq_some_iff.1 h with h | ⟨-, h⟩
          · exact length_quotedValue h
          · exact length_plainValue h
        have := length_le_of_dropWhile hkey
        have := length_le_of_dropWhile hcolon
        have := length_dropWhile_le isSpace x
        simp only [length_cons] at *
        omega
      · cases h
    · cases h
  · cases h

theorem convertLoop_congr : ∀ {n m : ℕ} {s : Text}, s.length ≤ n → s.length ≤ m →
    convertLoop n s = convertLoop m s
  | 0, 0, _, _, _ => rfl
  | 0, _ + 1, [], _, _ => rfl
  | _ + 1, 0, [], _, _ => rfl
  | _ + 1, _ + 1, [], _, _ => rfl
  | n + 1, m + 1, c :: s, hn, hm => by
    simp only [length_cons, Nat.add_le_add_iff_right] at hn hm
    simp only [convertLoop]
    rcases h : textObject (c :: s) with _ | ⟨value, rest⟩
    · simp only [convertLoop_congr hn hm]
    · have hlt := length_textObject h
      simp only [convertLoop_congr (hlt.trans hn) (hlt.trans hm)]

theorem convert_none {s : Text} (h : textObject (c :: s) = none) :
    convertTextJson (c :: s) = c :: convertTextJson s := by
  simp only [convertTextJson, length_cons, convertLoop, h]

theorem convert_some (h : textObject (c :: s) = some (value, rest)) :
    convertTextJson (c :: s) = value ++ convertTextJson rest := by
  simp only [convertTextJson, length_cons, convertLoop, h]
  rw [convertLoop_congr (length_textObject h) le_rfl]

theorem textObject_of_ne (h : c ≠ '\x7b') (s : Text) : textObject (c :: s) = none := by
  unfold textObject
  split
  · rename_i heq
    simp only [List.cons.injEq] at heq
    exact absurd heq.1 h
  · rfl

theorem convert_cons (h : c ≠ '\x7b') (s : Text) :
    convertTextJson (c :: s) = c :: convertTextJson s :=
  convert_none (textObject_of_ne h s)

theorem convert_append {p : Char → Bool} (hp : p '\x7b' = false) (rest : Text) :
    ∀ {s : Text}, s.all p = true → convertTextJson (s ++ rest) = s ++ convertTextJson rest
  | [], _ => rfl
  | c :: s, h => by
    rw [all_cons, Bool.and_eq_true] at h
    rw [cons_append, convert_cons ?_, convert_append hp rest h.2, cons_append]
    rintro rfl
    simp [hp] at h

/-- What may follow a string: nothing that would make its last quotation mark open a key `_t`. -/
def Follows (rest : Text) : Prop := rest.head? ≠ some '_'

theorem follows_cons (h : c ≠ '_') (s : Text) : Follows (c :: s) := by
  simpa [Follows] using h

theorem isSpace_of_isWhite (h : isWhite c = true) : isSpace c = true := by
  simp only [isWhite, Bool.or_eq_true, decide_eq_true_eq] at h
  rcases h with ((rfl | rfl) | rfl) | rfl <;> decide

theorem follows_white {rest : Text} (h : Follows rest) (w : White) : Follows (w.1 ++ rest) := by
  obtain ⟨s, hw⟩ := w
  rcases s with _ | ⟨c, s⟩
  · exact h
  · refine follows_cons ?_ _
    rintro rfl
    simp [isWhite] at hw

theorem dropWhile_white (w : White) (hc : isSpace c = false) (s : Text) :
    (w.1 ++ c :: s).dropWhile isSpace = c :: s := by
  rw [dropWhile_append_of_pos fun a ha => isSpace_of_isWhite (all_eq_true.1 w.2 a ha),
    dropWhile_cons_of_neg (by simp [hc])]

theorem dropWhile_str (rest : Text) : ∀ s : Str,
    (∃ c t, (s.text ++ '"' :: rest).dropWhile isSpace = c :: t ∧ c ≠ '"') ∨
      (s.text ++ '"' :: rest).dropWhile isSpace = '"' :: rest
  | [] => .inr (dropWhile_cons_of_neg (by decide))
  | .plain c h :: s => by
    rw [Str.text_cons, StrChar.text, append_assoc, singleton_append]
    by_cases hc : isSpace c = true
    · rw [dropWhile_cons_of_pos hc]
      exact dropWhile_str rest s
    · rw [dropWhile_cons_of_neg hc]
      exact .inl ⟨_, _, rfl, h.1⟩
  | .escape c h :: s => .inl ⟨'\\', _, dropWhile_cons_of_neg (by decide), by decide⟩
  | .unicode digits h :: s => .inl ⟨'\\', _, dropWhile_cons_of_neg (by decide), by decide⟩

theorem textObject_in_str (s : Str) {rest : Text} (h : Follows rest) :
    textObject ('\x7b' :: (s.text ++ '"' :: rest)) = none := by
  unfold textObject
  rcases dropWhile_str rest s with ⟨c, t, hdrop, hc⟩ | hdrop
  · simp only [hdrop]
    split
    · rename_i heq
      exact absurd (List.cons.inj heq).1 hc
    · rfl
  · simp only [hdrop]
    split
    · rename_i heq
      refine absurd ?_ h
      rw [(List.cons.inj heq).2]
      rfl
    · rfl

theorem convert_str {rest : Text} (h : Follows rest) :
    ∀ s : Str, convertTextJson (s.text ++ '"' :: rest) = s.text ++ '"' :: convertTextJson rest
  | [] => convert_cons (by decide) rest
  | .plain c hc :: s => by
    rw [Str.text_cons, StrChar.text, List.append_assoc, List.singleton_append]
    by_cases hbrace : c = '\x7b'
    · subst hbrace
      rw [convert_none (textObject_in_str s h), convert_str h s]
      rfl
    · rw [convert_cons hbrace, convert_str h s]
      rfl
  | .escape c hc :: s => by
    have hbrace : c ≠ '\x7b' := by
      rintro rfl
      simp at hc
    simp only [Str.text_cons, StrChar.text, List.cons_append, List.nil_append]
    rw [convert_cons (by decide), convert_cons hbrace, convert_str h s]
  | .unicode digits hd :: s => by
    simp only [Str.text_cons, StrChar.text, List.cons_append, List.append_assoc]
    rw [convert_cons (by decide), convert_cons (by decide), convert_append (by decide) _ hd.2,
      convert_str h s]

theorem convert_quoted (s : Str) {rest : Text} (h : Follows rest) :
    convertTextJson (s.quoted ++ rest) = s.quoted ++ convertTextJson rest := by
  simp only [Str.quoted, List.cons_append, List.append_assoc, List.nil_append]
  rw [convert_cons (by decide), convert_str h]

section Objects

variable {key : Str}

theorem key_of_quote (rest t : Text) : ∀ {key : Str},
    key.text ++ '"' :: rest = '_' :: 't' :: '"' :: t → key.text = ['_', 't']
  | [], h => by simp at h
  | .plain _ _ :: [], h => by simp [StrChar.text] at h
  | .plain c _ :: .plain d _ :: [], h => by
    simp only [Str.text_cons, StrChar.text, Str.text_nil, List.append_nil, List.cons_append,
      List.nil_append, List.cons.injEq] at h ⊢
    exact ⟨h.1, h.2.1, trivial⟩
  | .plain _ _ :: .plain _ _ :: .plain e he :: _, h => by
    simp only [Str.text_cons, StrChar.text, List.cons_append, List.nil_append,
      List.cons.injEq] at h
    exact absurd h.2.2.1 he.1
  | .plain _ _ :: .plain _ _ :: .escape _ _ :: _, h => by simp [StrChar.text] at h
  | .plain _ _ :: .plain _ _ :: .unicode _ _ :: _, h => by simp [StrChar.text] at h
  | .plain _ _ :: .escape _ _ :: _, h => by simp [StrChar.text] at h
  | .plain _ _ :: .unicode _ _ :: _, h => by simp [StrChar.text] at h
  | .escape _ _ :: _, h => by simp [StrChar.text] at h
  | .unicode _ _ :: _, h => by simp [StrChar.text] at h

theorem textObject_key (hkey : key.text ≠ ['_', 't']) (w : White) (rest : Text) :
    textObject ('\x7b' :: (w.1 ++ (key.quoted ++ rest))) = none := by
  have hdrop : (w.1 ++ (key.quoted ++ rest)).dropWhile isSpace =
      '"' :: (key.text ++ '"' :: rest) := by
    simp only [Str.quoted, List.cons_append, List.append_assoc, List.nil_append]
    exact dropWhile_white w (by decide) _
  unfold textObject
  simp only [hdrop]
  split
  · rename_i heq
    exact absurd (key_of_quote _ _ (List.cons.inj heq).2) hkey
  · rfl

theorem textObject_empty (w : White) (rest : Text) :
    textObject ('\x7b' :: (w.1 ++ '\x7d' :: rest)) = none := by
  unfold textObject
  simp only [dropWhile_white w (c := '\x7d') (by decide) rest]
  rfl

theorem textObject_text (hkey : key.text = ['_', 't']) (beforeKey afterKey before : White)
    {c : Char} (hc : isSpace c = false) (x : Text) :
    textObject ('\x7b' :: (beforeKey.1 ++ (key.quoted ++ (afterKey.1 ++
      (':' :: (before.1 ++ c :: x)))))) = (quotedValue (c :: x)).or (plainValue (c :: x)) := by
  have hdrop : (beforeKey.1 ++ (key.quoted ++ (afterKey.1 ++
      (':' :: (before.1 ++ c :: x))))).dropWhile isSpace =
        '"' :: '_' :: 't' :: '"' :: (afterKey.1 ++ (':' :: (before.1 ++ c :: x))) := by
    simp only [Str.quoted, hkey, List.cons_append, List.nil_append]
    exact dropWhile_white beforeKey (by decide) _
  unfold textObject
  simp only [hdrop, dropWhile_white afterKey (c := ':') (by decide) _, dropWhile_white before hc]

section Values

variable {d : Char} {s t : Text}

theorem dropWhile_ne (h : d ∉ s) (t : Text) : (s ++ d :: t).dropWhile (· ≠ d) = d :: t := by
  rw [List.dropWhile_append_of_pos, List.dropWhile_cons_of_neg (by simp)]
  intro a ha
  simp only [ne_eq, decide_not, Bool.not_eq_eq_eq_not, Bool.not_true, decide_eq_false_iff_not]
  rintro rfl
  exact h ha

theorem takeWhile_ne (h : d ∉ s) (t : Text) : (s ++ d :: t).takeWhile (· ≠ d) = s := by
  rw [List.takeWhile_append_of_pos, List.takeWhile_cons_of_neg (by simp), List.append_nil]
  intro a ha
  simp only [ne_eq, decide_not, Bool.not_eq_eq_eq_not, Bool.not_true, decide_eq_false_iff_not]
  rintro rfl
  exact h ha

theorem plainValue_eq (h : '\x7d' ∉ s) (t : Text) :
    plainValue (s ++ '\x7d' :: t) = some (s, t) := by
  simp only [plainValue, dropWhile_ne h, takeWhile_ne h]

theorem quotedValue_eq (h : '"' ∉ s) (w : White) (t : Text) :
    quotedValue ('"' :: (s ++ '"' :: (w.1 ++ '\x7d' :: t))) = some ('"' :: s ++ ['"'], t) := by
  simp only [quotedValue, dropWhile_ne h, takeWhile_ne h,
    dropWhile_white w (c := '\x7d') (by decide)]

theorem quotedValue_none (h : '"' ∉ s) (hnext : ∀ x, t.dropWhile isSpace ≠ '\x7d' :: x) :
    quotedValue ('"' :: (s ++ '"' :: t)) = none := by
  simp only [quotedValue, dropWhile_ne h]

theorem dropWhile_ne_brace (u x : Text) : ∀ {s : Text}, '\x7d' ∉ s →
    (s ++ '"' :: u).dropWhile isSpace ≠ '\x7d' :: x
  | [], _ => by
    rw [nil_append, dropWhile_cons_of_neg (by decide)]
    simp
  | c :: s, h => by
    rw [mem_cons, not_or] at h
    rw [cons_append]
    by_cases hc : isSpace c = true
    · rw [dropWhile_cons_of_pos hc]
      exact dropWhile_ne_brace u x h.2
    · rw [dropWhile_cons_of_neg hc]
      simpa using fun heq => absurd heq.symm h.1

theorem dropWhile_str_brace : ∀ s : Str,
    (∃ q : Str, ∀ u : Text, (s.text ++ '"' :: u).dropWhile isSpace =
      '\x7d' :: (q.text ++ '"' :: u)) ∨
    ∀ u x : Text, (s.text ++ '"' :: u).dropWhile isSpace ≠ '\x7d' :: x
  | [] => .inr fun u x => dropWhile_ne_brace u x (s := []) (by simp)
  | .plain c h :: s => by
    simp only [Str.text_cons, StrChar.text, List.cons_append, List.nil_append]
    by_cases hc : isSpace c = true
    · simp only [List.dropWhile_cons_of_pos hc]
      exact dropWhile_str_brace s
    · simp only [List.dropWhile_cons_of_neg hc]
      by_cases hbrace : c = '\x7d'
      · exact .inl ⟨s, fun u => by rw [hbrace]⟩
      · exact .inr fun u x heq => hbrace (List.cons.inj heq).1
  | .escape c h :: s => .inr fun u x => by
    simp [StrChar.text, List.dropWhile_cons_of_neg, isSpace]
  | .unicode digits h :: s => .inr fun u x => by
    simp [StrChar.text, List.dropWhile_cons_of_neg, isSpace]

theorem exists_quote : ∀ {s : Str}, '"' ∈ s.text →
    ∃ p e q, s = p ++ e :: q ∧ e.text = ['\\', '"'] ∧ '"' ∉ Str.text p
  | c :: s, h => by
    by_cases hc : '"' ∈ c.text
    · refine ⟨[], c, s, rfl, ?_, by simp⟩
      match c with
      | .plain c h => exact absurd (List.mem_singleton.1 hc) (Ne.symm h.1)
      | .escape c h => simpa [StrChar.text, eq_comm] using hc
      | .unicode digits h =>
        have hhex := List.all_eq_true.1 h.2 '"'
        simp only [StrChar.text, mem_cons, Char.reduceEq, false_or] at hc
        exact absurd (hhex hc) (by decide)
    · rw [Str.text_cons, mem_append] at h
      obtain ⟨p, e, q, rfl, he, hp⟩ := exists_quote (h.resolve_left hc)
      exact ⟨c :: p, e, q, rfl, he, by simp [hc, hp]⟩

theorem exists_brace : ∀ {s : Str}, '\x7d' ∈ s.text →
    ∃ p e q, s = p ++ e :: q ∧ e.text = ['\x7d'] ∧ '\x7d' ∉ Str.text p
  | c :: s, h => by
    by_cases hc : '\x7d' ∈ c.text
    · refine ⟨[], c, s, rfl, ?_, by simp⟩
      match c with
      | .plain c h => rw [StrChar.text, mem_singleton.1 hc]
      | .escape c h =>
        simp only [StrChar.text, mem_cons, Char.reduceEq, false_or, not_mem_nil, or_false] at hc
        rw [← hc] at h
        simp at h
      | .unicode digits h =>
        have hhex := all_eq_true.1 h.2 '\x7d'
        simp only [StrChar.text, mem_cons, Char.reduceEq, false_or] at hc
        exact absurd (hhex hc) (by decide)
    · rw [Str.text_cons, mem_append] at h
      obtain ⟨p, e, q, rfl, he, hp⟩ := exists_brace (h.resolve_left hc)
      exact ⟨c :: p, e, q, rfl, he, by simp [hc, hp]⟩

end Values

section Leaves

theorem not_isSpace_of_isBare {c : Char} (h : isBare c = true) : isSpace c = false := by
  rw [Bool.eq_false_iff]
  intro hs
  simp only [isSpace, Bool.or_eq_true, Bool.and_eq_true, beq_iff_eq, decide_eq_true_eq] at hs
  rcases hs with ((rfl | hs) | rfl) | rfl
  · exact absurd h (by decide)
  · have hle : c.val.toNat ≤ 13 := hs.2
    simp only [isBare, Char.isAlphanum, Char.isAlpha, Char.isUpper, Char.isLower, Char.isDigit,
      Bool.or_eq_true, Bool.and_eq_true, decide_eq_true_eq, ge_iff_le, UInt32.le_iff_toNat_le] at h
    rcases h with (((h | h) | rfl) | rfl) | rfl
    · have hge : 65 ≤ c.val.toNat := by rcases h with h | h <;> exact le_trans (by decide) h.1
      omega
    · have hge : 48 ≤ c.val.toNat := h.1
      omega
    all_goals exact absurd hs.2 (by decide)
  · exact absurd h (by decide)
  · exact absurd h (by decide)

theorem brace_not_mem_white (w : White) : '\x7d' ∉ w.1 := fun h =>
  absurd (all_eq_true.1 w.2 _ h) (by decide)

theorem value_scalar (s : Scalar) (after : White) (rest : Text) :
    (quotedValue (s.text ++ (after.1 ++ '\x7d' :: rest))).or
      (plainValue (s.text ++ (after.1 ++ '\x7d' :: rest))) = some (s.text ++ after.1, rest) := by
  have hbrace : '\x7d' ∉ s.text := fun h =>
    absurd (all_eq_true.1 s.text_bare _ h) (by decide)
  have hquote : quotedValue (s.text ++ (after.1 ++ '\x7d' :: rest)) = none := by
    obtain ⟨c, x, hx⟩ := exists_cons_of_ne_nil s.text_ne_nil
    have hc : isBare c = true := all_eq_true.1 s.text_bare c (by simp [hx])
    rw [hx, cons_append]
    unfold quotedValue
    split
    · rename_i heq
      rw [(List.cons.inj heq).1] at hc
      exact absurd hc (by decide)
    · rfl
  rw [hquote, Option.none_or, ← append_assoc, plainValue_eq]
  rw [mem_append, not_or]
  exact ⟨hbrace, brace_not_mem_white after⟩

theorem value_quoted {s : Str} (h : '"' ∉ s.text) (after : White) (rest : Text) :
    (quotedValue (s.quoted ++ (after.1 ++ '\x7d' :: rest))).or
      (plainValue (s.quoted ++ (after.1 ++ '\x7d' :: rest))) = some (s.quoted, rest) := by
  simp only [Str.quoted, List.cons_append, List.append_assoc, List.nil_append]
  rw [quotedValue_eq h after rest, Option.some_or]
  rfl

theorem value_escaped {s : Str} (h : '"' ∈ s.text) (h' : '\x7d' ∉ s.text) (after : White)
    (rest : Text) : (quotedValue (s.quoted ++ (after.1 ++ '\x7d' :: rest))).or
      (plainValue (s.quoted ++ (after.1 ++ '\x7d' :: rest))) =
        some (s.quoted ++ after.1, rest) := by
  have hquote : quotedValue (s.quoted ++ (after.1 ++ '\x7d' :: rest)) = none := by
    obtain ⟨x, y, hxy, hx⟩ := eq_append_cons_of_mem h
    simp only [Str.quoted, hxy, cons_append, append_assoc, nil_append]
    refine quotedValue_none hx fun z => dropWhile_ne_brace _ z ?_
    simp only [hxy, mem_append, mem_cons, not_or] at h'
    exact h'.2.2
  rw [hquote, Option.none_or, ← append_assoc, plainValue_eq]
  simp [Str.quoted, h', brace_not_mem_white]

theorem value_cut {s : Str} (h : '"' ∈ s.text) (h' : '\x7d' ∈ s.text) : ∃ p q : Str,
    ∀ (after : White) (rest : Text), (quotedValue (s.quoted ++ (after.1 ++ '\x7d' :: rest))).or
      (plainValue (s.quoted ++ (after.1 ++ '\x7d' :: rest))) =
        some ('"' :: p.text, q.text ++ '"' :: (after.1 ++ '\x7d' :: rest)) := by
  obtain ⟨p, e, q, rfl, he, hp⟩ := exists_quote h
  have hquoted : ∀ u : Text, Str.quoted (p ++ e :: q) ++ u =
      '"' :: ((Str.text p ++ ['\\']) ++ '"' :: (Str.text q ++ '"' :: u)) := by
    simp [Str.quoted, he]
  have hx : '"' ∉ Str.text p ++ ['\\'] := by simp [hp]
  rcases dropWhile_str_brace q with ⟨q', hq'⟩ | hnext
  · refine ⟨p ++ [e], q', fun after rest => ?_⟩
    rw [hquoted]
    simp only [quotedValue, dropWhile_ne hx, takeWhile_ne hx, hq', Option.some_or]
    simp [he]
  · obtain ⟨p', e', q', hs, he', hp'⟩ := exists_brace h'
    refine ⟨p', q', fun after rest => ?_⟩
    have hnone : quotedValue (Str.quoted (p ++ e :: q) ++ (after.1 ++ '\x7d' :: rest)) = none := by
      rw [hquoted]
      exact quotedValue_none hx fun z => hnext _ z
    have hplain : Str.quoted (p ++ e :: q) ++ (after.1 ++ '\x7d' :: rest) =
        ('"' :: Str.text p') ++ '\x7d' :: (Str.text q' ++ '"' :: (after.1 ++ '\x7d' :: rest)) := by
      simp [Str.quoted, hs, he']
    rw [hnone, Option.none_or, hplain, plainValue_eq]
    simpa using hp'

end Leaves

end Objects

end AciX.Json
