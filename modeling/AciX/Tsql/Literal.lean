import AciX.Tsql.Lex

/-!
# String literals

A text put between quotes is read as that text if there are no quotes in it (`lexFrom_literal`), and
otherwise not, as long as the quote that is to end it is not followed by another one
(`no_quote_of_literal`).
-/

namespace AciX.Tsql

open List

def State.lexFrom (s : State) (t : Text) : Option (List Token) :=
  (s.read t).2.finish.map ((s.read t).1 ++ ·)

theorem lexFrom_start (t : Text) : State.start.lexFrom t = lex t := rfl

theorem lexFrom_cons (s : State) (c : Char) (t : Text) :
    s.lexFrom (c :: t) = ((s.next c).2.lexFrom t).map ((s.next c).1 ++ ·) := by
  simp [State.lexFrom, State.read, Function.comp_def]

theorem lexFrom_append {s s' : State} {t : Text} {x : List Token} (h : s.read t = (x, s'))
    (u : Text) : s.lexFrom (t ++ u) = (s'.lexFrom u).map (x ++ ·) := by
  simp [State.lexFrom, State.read_append, h, Function.comp_def]

def quote : Char := '\x27'

def quotes (t : Text) : ℕ := t.count quote

theorem quotes_append (s t : Text) : quotes (s ++ t) = quotes s + quotes t := count_append

/-- The first token read inside of a literal is the literal. What is written of it, up to the quote
that ends it, has each quote twice. -/
theorem lexFrom_string : ∀ {u t : Text} {x : List Token}, (State.string t).lexFrom u = some x →
    ∃ v rest r u', x = .string v :: rest ∧ u = r ++ quote :: u' ∧
      r.length + t.length + quotes t = v.length + quotes v ∧ quotes r + 2 * quotes t = 2 * quotes v
  | [], t, x, h => by cases h
  | [c], t, x, h => by
    rw [lexFrom_cons] at h
    by_cases hc : c = quote
    · subst hc
      cases h
      exact ⟨t, [], [], [], rfl, rfl, by simp, by simp [quotes]⟩
    · have hnext : (State.string t).next c = ([], .string (t ++ [c])) := by
        simp only [State.next, if_neg (show ¬ c = '\x27' from hc)]
      rw [hnext] at h
      cases h
  | c :: d :: u, t, x, h => by
    rw [lexFrom_cons] at h
    by_cases hc : c = quote
    · subst hc
      have hnext : (State.string t).next quote = ([], .stringEnd t) := rfl
      simp only [hnext, nil_append, Option.map_id'] at h
      rw [lexFrom_cons] at h
      by_cases hd : d = quote
      · subst hd
        have hnext' : (State.stringEnd t).next quote = ([], .string (t ++ [quote])) := rfl
        simp only [hnext', nil_append, Option.map_id'] at h
        obtain ⟨v, rest, r, u', rfl, rfl, hlen, hquotes⟩ := lexFrom_string h
        have hone : quotes [quote] = 1 := by simp [quotes]
        have hcons : quotes (quote :: quote :: r) = quotes r + 2 := by simp [quotes]
        rw [quotes_append, hone] at hlen hquotes
        rw [length_append, length_singleton] at hlen
        refine ⟨v, rest, quote :: quote :: r, u', rfl, rfl, ?_, ?_⟩
        · simp only [length_cons]
          omega
        · rw [hcons]
          omega
      · have hnext' : (State.stringEnd t).next d = (State.stringEnd t).endBefore d := by
          simp only [State.next, if_neg (show ¬ d = '\x27' from hd)]
        rw [hnext', State.endBefore] at h
        obtain ⟨y, -, rfl⟩ := Option.map_eq_some_iff.1 h
        exact ⟨t, _, [], d :: u, rfl, rfl, by simp, by simp [quotes]⟩
    · have hnext : (State.string t).next c = ([], .string (t ++ [c])) := by
        simp only [State.next, if_neg (show ¬ c = '\x27' from hc)]
      simp only [hnext, nil_append, Option.map_id'] at h
      obtain ⟨v, rest, r, u', rfl, heq, hlen, hquotes⟩ := lexFrom_string h
      have hone : quotes [c] = 0 := by simp [quotes, hc]
      have hcons : quotes (c :: r) = quotes r := by simp [quotes, hc]
      rw [quotes_append, hone] at hlen hquotes
      rw [length_append, length_singleton] at hlen
      refine ⟨v, rest, c :: r, u', rfl, by rw [heq]; rfl, ?_, ?_⟩
      · rw [length_cons]
        omega
      · rw [hcons]
        omega

theorem no_quote_of_literal {t u : Text} {rest : List Token} (hu : u.head? ≠ some quote)
    (h : (State.string []).lexFrom (t ++ quote :: u) = some (.string t :: rest)) : quote ∉ t := by
  intro hmem
  obtain ⟨v, rest', r, u', hx, heq, hlen, hquotes⟩ := lexFrom_string h
  obtain ⟨rfl, -⟩ : t = v ∧ rest = rest' := by simpa using hx
  have hpos : 0 < quotes t := count_pos_iff.2 hmem
  simp only [length_nil, quotes, count_nil] at hlen hquotes
  rcases append_eq_append_iff.1 heq with ⟨a, hr, ha⟩ | ⟨a, ht, -⟩
  · rcases a with _ | ⟨c, z⟩
    · rw [append_nil] at hr
      rw [hr] at hlen
      simp only [quotes] at hpos
      omega
    · rw [cons_append] at ha
      obtain ⟨rfl, hz⟩ := List.cons.inj ha
      have hall : z.count quote = z.length := by
        rw [hr] at hlen hquotes
        simp only [length_append, length_cons, count_append, count_cons_self] at hlen hquotes
        omega
      refine hu ?_
      rw [hz]
      rcases z with _ | ⟨d, z⟩
      · rfl
      · rw [← count_eq_length.1 hall d mem_cons_self]
        rfl
  · have hle := congrArg List.length ht
    simp only [length_append] at hle
    simp only [quotes] at hpos
    omega

theorem read_string {t : Text} : ∀ {u : Text}, quote ∉ u →
    (State.string t).read (u ++ [quote]) = ([], .stringEnd (t ++ u))
  | [], _ => by simp [State.read, State.next, quote]
  | c :: u, h => by
    rw [mem_cons, not_or] at h
    have hnext : (State.string t).next c = ([], .string (t ++ [c])) := by
      simp only [State.next, if_neg (show ¬ c = '\x27' from fun hc => h.1 hc.symm)]
    rw [cons_append, State.read, hnext, read_string h.2]
    simp

theorem lexFrom_literal {t u : Text} (ht : quote ∉ t) (hu : u.head? ≠ some quote) :
    (State.string []).lexFrom (t ++ quote :: u) = (lex u).map (.string t :: ·) := by
  have hsplit : t ++ quote :: u = (t ++ [quote]) ++ u := by simp
  rw [hsplit, lexFrom_append (read_string ht), nil_append]
  rcases u with _ | ⟨c, u⟩
  · rfl
  · have hc : c ≠ quote := by simpa using hu
    have hnext : (State.stringEnd t).next c = (State.stringEnd t).endBefore c := by
      simp only [State.next, if_neg (show ¬ c = '\x27' from hc)]
    rw [← lexFrom_start, lexFrom_cons, lexFrom_cons, hnext]
    simp [State.endBefore, State.finish, State.next, Function.comp_def]

end AciX.Tsql
