import Mathlib.Data.List.Basic

/-!
# JSON texts

The grammar of JSON documents with all that is written: the white space, the escapes of strings and
the digits of numbers. A reader that only follows where strings begin and end can count the objects
of a value (`closers_value`).
-/

namespace AciX.Json

open List

def isWhite (c : Char) : Bool := c = ' ' || c = '\t' || c = '\n' || c = '\r'

abbrev White := { s : List Char // s.all isWhite = true }

namespace White

def empty : White := ⟨[], rfl⟩

def append (s t : White) : White := ⟨s.1 ++ t.1, by rw [all_append, s.2, t.2]; rfl⟩

@[simp] theorem coe_empty : empty.1 = [] := rfl

@[simp] theorem coe_append (s t : White) : (s.append t).1 = s.1 ++ t.1 := rfl

end White

def isHex (c : Char) : Bool := c.isDigit || ('a' ≤ c && c ≤ 'f') || ('A' ≤ c && c ≤ 'F')

def hexValue (c : Char) : ℕ :=
  if c.isDigit then c.toNat - '0'.toNat
  else if 'a' ≤ c then c.toNat - 'a'.toNat + 10
  else c.toNat - 'A'.toNat + 10

inductive StrChar where
  | plain (c : Char) (h : c ≠ '"' ∧ c ≠ '\\' ∧ ' ' ≤ c)
  | escape (c : Char) (h : c ∈ ['"', '\\', '/', 'b', 'f', 'n', 'r', 't'])
  | unicode (digits : List Char) (h : digits.length = 4 ∧ digits.all isHex = true)

namespace StrChar

def text : StrChar → List Char
  | plain c _ => [c]
  | escape c _ => ['\\', c]
  | unicode digits _ => '\\' :: 'u' :: digits

def code : StrChar → ℕ
  | plain c _ => c.toNat
  | escape c _ =>
    if c = 'b' then 8 else if c = 'f' then 12 else if c = 'n' then 10 else if c = 'r' then 13
    else if c = 't' then 9 else c.toNat
  | unicode digits _ => digits.foldl (fun n d => 16 * n + hexValue d) 0

end StrChar

abbrev Str := List StrChar

def Str.text (s : Str) : List Char := s.flatMap StrChar.text

def Str.quoted (s : Str) : List Char := '"' :: s.text ++ ['"']

@[simp] theorem Str.text_nil : Str.text [] = [] := rfl

@[simp] theorem Str.text_cons (c : StrChar) (s : Str) : Str.text (c :: s) = c.text ++ Str.text s :=
  rfl

@[simp] theorem Str.text_append (s t : Str) : Str.text (s ++ t) = Str.text s ++ Str.text t :=
  flatMap_append

structure Number where
  negative : Bool
  whole : List Char
  fraction : List Char
  exponent : Option (Char × List Char × List Char)
  whole_digits : whole.all Char.isDigit = true
  whole_proper : whole ≠ [] ∧ (whole.head? = some '0' → whole = ['0'])
  fraction_digits : fraction.all Char.isDigit = true
  exponent_proper : ∀ e ∈ exponent, (e.1 = 'e' ∨ e.1 = 'E') ∧ e.2.1 ∈ [[], ['+'], ['-']] ∧
    e.2.2.all Char.isDigit = true ∧ e.2.2 ≠ []

def Number.text (n : Number) : List Char :=
  (if n.negative then ['-'] else []) ++ n.whole ++
    (if n.fraction = [] then [] else '.' :: n.fraction) ++
    (n.exponent.elim [] fun e => e.1 :: e.2.1 ++ e.2.2)

inductive Scalar where
  | null
  | bool (b : Bool)
  | number (n : Number)

def Scalar.text : Scalar → List Char
  | null => ['n', 'u', 'l', 'l']
  | bool true => ['t', 'r', 'u', 'e']
  | bool false => ['f', 'a', 'l', 's', 'e']
  | number n => n.text

def isBare (c : Char) : Bool := c.isAlphanum || c = '-' || c = '+' || c = '.'

theorem isBare_of_isDigit {c : Char} (h : c.isDigit = true) : isBare c = true := by
  simp [isBare, Char.isAlphanum, h]

theorem Number.text_bare (n : Number) : n.text.all isBare = true := by
  have hdigits : ∀ {s : List Char}, s.all Char.isDigit = true → s.all isBare = true :=
    fun h => all_eq_true.2 fun c hc => isBare_of_isDigit (all_eq_true.1 h c hc)
  have hexponent : (n.exponent.elim [] fun e => e.1 :: e.2.1 ++ e.2.2).all isBare = true := by
    rcases h : n.exponent with _ | ⟨letter, sign, digits⟩
    · rfl
    · obtain ⟨hletter, hsign, hall, -⟩ := n.exponent_proper _ h
      simp only [Option.elim, cons_append, all_cons, all_append, hdigits hall,
        Bool.and_true, Bool.and_eq_true]
      refine ⟨?_, ?_⟩
      · rcases hletter with rfl | rfl <;> rfl
      · simp only [mem_cons, not_mem_nil, or_false] at hsign
        rcases hsign with rfl | rfl | rfl <;> rfl
  unfold Number.text
  rw [all_append, all_append, all_append, hexponent, hdigits n.whole_digits]
  have hsign : (if n.negative then ['-'] else []).all isBare = true := by
    split_ifs <;> rfl
  have hfraction : (if n.fraction = [] then [] else '.' :: n.fraction).all isBare = true := by
    split_ifs
    · rfl
    · rw [all_cons, hdigits n.fraction_digits]
      rfl
  rw [hsign, hfraction]
  rfl

theorem Scalar.text_bare : ∀ s : Scalar, s.text.all isBare = true
  | null => rfl
  | bool true => rfl
  | bool false => rfl
  | number n => n.text_bare

theorem Number.text_ne_nil (n : Number) : n.text ≠ [] := by
  simp [Number.text, n.whole_proper.1]

theorem Scalar.text_ne_nil : ∀ s : Scalar, s.text ≠ []
  | null => by simp [Scalar.text]
  | bool true => by simp [Scalar.text]
  | bool false => by simp [Scalar.text]
  | number n => n.text_ne_nil

mutual

/-- A value as it is written. Before and after a value inside another there may be white space. -/
inductive Value where
  | scalar (s : Scalar)
  | string (s : Str)
  | emptyArray (w : White)
  | array (before : White) (v : Value) (after : White) (rest : Elements)
  | emptyObject (w : White)
  | object (beforeKey : White) (key : Str) (afterKey before : White) (v : Value) (after : White)
      (rest : Members)

inductive Elements where
  | nil
  | cons (before : White) (v : Value) (after : White) (rest : Elements)

inductive Members where
  | nil
  | cons (beforeKey : White) (key : Str) (afterKey before : White) (v : Value) (after : White)
      (rest : Members)

end

mutual

def Value.text : Value → List Char
  | .scalar s => s.text
  | .string s => s.quoted
  | .emptyArray w => '[' :: (w.1 ++ [']'])
  | .array before v after rest =>
    '[' :: (before.1 ++ (v.text ++ (after.1 ++ (rest.text ++ [']']))))
  | .emptyObject w => '\x7b' :: (w.1 ++ ['\x7d'])
  | .object beforeKey key afterKey before v after rest =>
    '\x7b' :: (beforeKey.1 ++ (key.quoted ++ (afterKey.1 ++ (':' :: (before.1 ++ (v.text ++
      (after.1 ++ (rest.text ++ ['\x7d']))))))))

def Elements.text : Elements → List Char
  | .nil => []
  | .cons before v after rest => ',' :: (before.1 ++ (v.text ++ (after.1 ++ rest.text)))

def Members.text : Members → List Char
  | .nil => []
  | .cons beforeKey key afterKey before v after rest =>
    ',' :: (beforeKey.1 ++ (key.quoted ++ (afterKey.1 ++ (':' :: (before.1 ++ (v.text ++
      (after.1 ++ rest.text)))))))

end

structure Document where
  before : White
  value : Value
  after : White

def Document.text (d : Document) : List Char := d.before.1 ++ (d.value.text ++ d.after.1)

mutual

def Value.objects : Value → ℕ
  | .scalar _ => 0
  | .string _ => 0
  | .emptyArray _ => 0
  | .array _ v _ rest => v.objects + rest.objects
  | .emptyObject _ => 1
  | .object _ _ _ _ v _ rest => v.objects + rest.objects + 1

def Elements.objects : Elements → ℕ
  | .nil => 0
  | .cons _ v _ rest => v.objects + rest.objects

def Members.objects : Members → ℕ
  | .nil => 0
  | .cons _ _ _ _ v _ rest => v.objects + rest.objects

end

def closers : Bool → List Char → ℕ
  | _, [] => 0
  | false, c :: s =>
    if c = '"' then closers true s else (if c = '\x7d' then 1 else 0) + closers false s
  | true, [c] => if c = '"' then closers false [] else closers true []
  | true, c :: d :: s =>
    if c = '\\' then closers true s
    else if c = '"' then closers false (d :: s)
    else closers true (d :: s)

theorem closers_cons {c : Char} (h : c ≠ '"') (h' : c ≠ '\x7d') (s : List Char) :
    closers false (c :: s) = closers false s := by
  simp [closers, h, h']

theorem closers_brace (s : List Char) : closers false ('\x7d' :: s) = closers false s + 1 := by
  rw [closers, if_neg (by decide), if_pos rfl, Nat.add_comm]

theorem closers_append {p : Char → Bool} (hq : p '"' = false) (hb : p '\x7d' = false)
    (rest : List Char) : ∀ {s : List Char}, s.all p = true →
      closers false (s ++ rest) = closers false rest
  | [], _ => rfl
  | c :: s, h => by
    rw [List.all_cons, Bool.and_eq_true] at h
    rw [List.cons_append, closers_cons ?_ ?_, closers_append hq hb rest h.2]
    · rintro rfl
      simp [hq] at h
    · rintro rfl
      simp [hb] at h

theorem closers_white (w : White) (rest : List Char) :
    closers false (w.1 ++ rest) = closers false rest :=
  closers_append (by decide) (by decide) rest w.2

theorem closers_in_cons {c : Char} (h : c ≠ '"') (h' : c ≠ '\\') (d : Char) (s : List Char) :
    closers true (c :: d :: s) = closers true (d :: s) := by
  simp [closers, h, h']

theorem closers_in_quote (s : List Char) : closers true ('"' :: s) = closers false s := by
  cases s <;> simp [closers]

theorem closers_in_append {p : Char → Bool} (hq : p '"' = false) (hb : p '\\' = false) {d : Char}
    (rest : List Char) : ∀ {s : List Char}, s.all p = true →
      closers true (s ++ d :: rest) = closers true (d :: rest)
  | [], _ => rfl
  | [c], h => by
    refine closers_in_cons ?_ ?_ d rest
    · rintro rfl
      simp [hq] at h
    · rintro rfl
      simp [hb] at h
  | c :: c' :: s, h => by
    rw [all_cons, Bool.and_eq_true] at h
    rw [cons_append, cons_append, closers_in_cons ?_ ?_, ← cons_append,
      closers_in_append hq hb rest h.2]
    · rintro rfl
      simp [hq] at h
    · rintro rfl
      simp [hb] at h

theorem closers_strChar (d : Char) (rest : List Char) :
    ∀ c : StrChar, closers true (c.text ++ d :: rest) = closers true (d :: rest)
  | .plain c h => closers_in_cons h.1 h.2.1 d rest
  | .escape c h => by simp [StrChar.text, closers]
  | .unicode digits h => by
    have hdigits : closers true (digits ++ d :: rest) = closers true (d :: rest) :=
      closers_in_append (by decide) (by decide) rest h.2
    simpa [StrChar.text, closers] using hdigits

theorem closers_str (rest : List Char) :
    ∀ s : Str, closers true (s.text ++ '"' :: rest) = closers false rest
  | [] => closers_in_quote rest
  | c :: s => by
    have hnext : ∃ d rest', Str.text s ++ '"' :: rest = d :: rest' := by
      rcases Str.text s with _ | ⟨d, t⟩
      · exact ⟨_, _, rfl⟩
      · exact ⟨_, _, rfl⟩
    obtain ⟨d, rest', heq⟩ := hnext
    rw [Str.text_cons, append_assoc, heq, closers_strChar, ← heq, closers_str rest s]

theorem closers_quoted (s : Str) (rest : List Char) :
    closers false (s.quoted ++ rest) = closers false rest := by
  have hq : s.quoted ++ rest = '"' :: (s.text ++ '"' :: rest) := by simp [Str.quoted]
  rw [hq, closers, if_pos rfl, closers_str]

theorem closers_scalar (s : Scalar) (rest : List Char) :
    closers false (s.text ++ rest) = closers false rest :=
  closers_append (by decide) (by decide) rest s.text_bare

mutual

theorem closers_value (rest : List Char) :
    ∀ v : Value, closers false (v.text ++ rest) = v.objects + closers false rest
  | .scalar s => by rw [Value.text, closers_scalar, Value.objects, Nat.zero_add]
  | .string s => by rw [Value.text, closers_quoted, Value.objects, Nat.zero_add]
  | .emptyArray w => by
    simp only [Value.text, cons_append, append_assoc, nil_append, Value.objects, Nat.zero_add]
    rw [closers_cons (by decide) (by decide), closers_white, closers_cons (by decide) (by decide)]
  | .array before v after es => by
    simp only [Value.text, cons_append, append_assoc, nil_append, Value.objects]
    rw [closers_cons (by decide) (by decide), closers_white, closers_value, closers_white,
      closers_elements, closers_cons (by decide) (by decide), Nat.add_assoc]
  | .emptyObject w => by
    simp only [Value.text, cons_append, append_assoc, nil_append, Value.objects]
    rw [closers_cons (by decide) (by decide), closers_white, closers_brace, Nat.add_comm]
  | .object beforeKey key afterKey before v after ms => by
    simp only [Value.text, cons_append, append_assoc, nil_append, Value.objects]
    rw [closers_cons (by decide) (by decide), closers_white, closers_quoted, closers_white,
      closers_cons (by decide) (by decide), closers_white, closers_value, closers_white,
      closers_members, closers_brace]
    omega

theorem closers_elements (rest : List Char) :
    ∀ es : Elements, closers false (es.text ++ rest) = es.objects + closers false rest
  | .nil => by rw [Elements.text, Elements.objects, nil_append, Nat.zero_add]
  | .cons before v after es => by
    simp only [Elements.text, cons_append, append_assoc, Elements.objects]
    rw [closers_cons (by decide) (by decide), closers_white, closers_value, closers_white,
      closers_elements, Nat.add_assoc]

theorem closers_members (rest : List Char) :
    ∀ ms : Members, closers false (ms.text ++ rest) = ms.objects + closers false rest
  | .nil => by rw [Members.text, Members.objects, nil_append, Nat.zero_add]
  | .cons beforeKey key afterKey before v after ms => by
    simp only [Members.text, cons_append, append_assoc, Members.objects]
    rw [closers_cons (by decide) (by decide), closers_white, closers_quoted, closers_white,
      closers_cons (by decide) (by decide), closers_white, closers_value, closers_white,
      closers_members, Nat.add_assoc]

end

theorem closers_document (d : Document) : closers false d.text = d.value.objects := by
  rw [Document.text, closers_white, closers_value]
  have hafter := closers_white d.after []
  rw [append_nil] at hafter
  rw [hafter, closers, Nat.add_zero]

end AciX.Json
