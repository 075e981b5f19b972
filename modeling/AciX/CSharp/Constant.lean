import AciX.CSharp.Type

/-!
# Constants of C#

What is written as a default value denotes a constant of the parameter's type (`Denotes`). A text
between quotation marks denotes itself exactly if it has neither quotation marks nor backslashes nor
line breaks (`unescape_self_iff`), as an escape is longer than what it denotes.
-/

namespace AciX.CSharp

def isNewline (c : Char) : Bool :=
  c = '\n' || c = '\r' || c = '\u0085' || c = '\u2028' || c = '\u2029'

def simpleEscapes : List (Char × Char) :=
  [('\x27', '\x27'), ('\x22', '\x22'), ('\\', '\\'), ('0', '\x00'), ('a', '\x07'), ('b', '\x08'),
    ('f', '\x0c'), ('n', '\n'), ('r', '\r'), ('t', '\t'), ('v', '\x0b')]

def hexDigit (c : Char) : Option ℕ :=
  if c.isDigit then some (c.toNat - '0'.toNat)
  else if 'a' ≤ c ∧ c ≤ 'f' then some (c.toNat - 'a'.toNat + 10)
  else if 'A' ≤ c ∧ c ≤ 'F' then some (c.toNat - 'A'.toNat + 10)
  else none

inductive Mode where
  | plain
  | escape
  /-- Among the hexadecimal digits of an escape: how many more there may be and must be,
    and the number
  so far. -/
  | hex (most least value : ℕ)

def unescape (delimiter : Char) : Mode → Text → Option Text
  | .plain, [] => some []
  | .plain, c :: s =>
    if c = delimiter ∨ isNewline c then none
    else if c = '\\' then unescape delimiter .escape s
    else (unescape delimiter .plain s).map (c :: ·)
  | .escape, c :: s =>
    if c = 'x' then unescape delimiter (.hex 4 1 0) s
    else if c = 'u' then unescape delimiter (.hex 4 4 0) s
    else if c = 'U' then unescape delimiter (.hex 8 8 0) s
    else do
      let e ← simpleEscapes.find? (·.1 = c)
      let t ← unescape delimiter .plain s
      return e.2 :: t
  | .hex most least value, c :: s =>
    match hexDigit c with
    | some d =>
      if most = 1 then (unescape delimiter .plain s).map (Char.ofNat (16 * value + d) :: ·)
      else unescape delimiter (.hex (most - 1) (least - 1) (16 * value + d)) s
    | none =>
      if least ≠ 0 ∨ c = delimiter ∨ isNewline c then none
      else if c = '\\' then (unescape delimiter .escape s).map (Char.ofNat value :: ·)
      else (unescape delimiter .plain s).map fun t => Char.ofNat value :: c :: t
  | .hex _ least value, [] => if least = 0 then some [Char.ofNat value] else none
  | .escape, [] => none

def Plain (delimiter : Char) (s : Text) : Prop :=
  ∀ c ∈ s, c ≠ delimiter ∧ isNewline c = false ∧ c ≠ '\\'

def Mode.pending : Mode → ℕ
  | .hex _ _ _ => 1
  | _ => 0

theorem length_unescape {delimiter : Char} : ∀ {s : Text} {m : Mode} {t : Text},
    unescape delimiter m s = some t → t.length ≤ s.length + m.pending := by
  intro s m
  fun_induction unescape delimiter m s <;> intro t h <;>
    simp_all [Mode.pending, Option.bind_eq_some_iff, Option.map_eq_some_iff] <;> grind

theorem unescape_self_iff {delimiter : Char} : ∀ {s : Text},
    unescape delimiter .plain s = some s ↔ Plain delimiter s
  | [] => by simp [unescape, Plain]
  | c :: s => by
    rw [unescape, Plain, List.forall_mem_cons]
    split_ifs with hbad hslash
    · refine iff_of_false nofun fun h => ?_
      rcases hbad with hbad | hbad
      · exact h.1.1 hbad
      · rw [h.1.2.1] at hbad
        cases hbad
    · refine iff_of_false (fun h => ?_) fun h => h.1.2.2 hslash
      have hlen := length_unescape h
      simp only [List.length_cons, Mode.pending] at hlen
      omega
    · rw [not_or, Bool.not_eq_true] at hbad
      simp [unescape_self_iff, Plain, hbad, hslash]

/-- A number as it is written: digits, those after the point, and the exponent with `true` for a
minus sign. -/
structure Number where
  whole : Text
  fraction : Text := []
  exponent : Option (Bool × Text) := none

def signText (neg : Bool) : Text := if neg then ['-'] else []

def fractionText (f : Text) : Text := if f = [] then [] else '.' :: f

def exponentText : Option (Bool × Text) → Text
  | none => []
  | some (neg, e) => 'E' :: (if neg then '-' else '+') :: e

def Number.text (n : Number) : Text :=
  n.whole ++ (fractionText n.fraction ++ exponentText n.exponent)

structure Number.Valid (n : Number) : Prop where
  ne_nil : n.whole ≠ []
  whole : n.whole.all Char.isDigit = true
  fraction : n.fraction.all Char.isDigit = true

theorem head_exponent (e : Option (Bool × Text)) : ∀ c ∈ (exponentText e).head?, c = 'E' := by
  rcases e with _ | ⟨neg, e⟩ <;> simp [exponentText, eq_comm]

theorem exponent_inj {e e' : Option (Bool × Text)} (h : exponentText e = exponentText e') :
    e = e' := by
  rcases e with _ | ⟨neg, e⟩ <;> rcases e' with _ | ⟨neg', e'⟩
  · rfl
  · cases h
  · cases h
  · cases neg <;> cases neg' <;> simp_all [exponentText]

theorem fraction_inj {f f' : Text} {e e' : Option (Bool × Text)}
    (hf : f.all Char.isDigit = true) (hf' : f'.all Char.isDigit = true)
    (h : fractionText f ++ exponentText e = fractionText f' ++ exponentText e') :
    f = f' ∧ e = e' := by
  have hend : ∀ e, ∀ c ∈ (exponentText e).head?, c.isDigit = false := fun e c hc => by
    rw [head_exponent e c hc]
    rfl
  unfold fractionText at h
  split_ifs at h with hnil hnil' hnil'
  · rw [hnil, hnil']
    exact ⟨rfl, exponent_inj h⟩
  · have := head_exponent e '.' (by rw [show exponentText e = _ from h]; rfl)
    cases this
  · have := head_exponent e' '.' (by rw [show exponentText e' = _ from h.symm]; rfl)
    cases this
  · obtain ⟨hff, he⟩ := split_inj hf hf' (hend e) (hend e') (List.cons.inj h).2
    exact ⟨hff, exponent_inj he⟩

theorem Number.text_inj {n n' : Number} (hn : n.Valid) (hn' : n'.Valid) (h : n.text = n'.text) :
    n = n' := by
  have hend : ∀ n : Number, ∀ c ∈ (fractionText n.fraction ++ exponentText n.exponent).head?,
      c.isDigit = false := by
    intro n c hc
    unfold fractionText at hc
    split_ifs at hc
    · rw [head_exponent _ c hc]
      rfl
    · obtain rfl : '.' = c := by simpa using hc
      rfl
  obtain ⟨hwhole, hrest⟩ := split_inj hn.whole hn'.whole (hend n) (hend n') h
  obtain ⟨hfraction, hexponent⟩ := fraction_inj hn.fraction hn'.fraction hrest
  cases n
  cases n'
  simp_all

theorem head_number {n : Number} (hn : n.Valid) : ∃ c s, n.text = c :: s ∧ c.isDigit = true := by
  obtain ⟨c, s, hw⟩ := List.exists_cons_of_ne_nil hn.ne_nil
  refine ⟨c, s ++ _, by rw [Number.text, hw]; rfl, ?_⟩
  have := hn.whole
  rw [hw] at this
  simp_all

theorem signed_inj {neg neg' : Bool} {n n' : Number} (hn : n.Valid) (hn' : n'.Valid)
    (h : signText neg ++ n.text = signText neg' ++ n'.text) : neg = neg' ∧ n = n' := by
  obtain ⟨c, s, hc, hdigit⟩ := head_number hn
  obtain ⟨c', s', hc', hdigit'⟩ := head_number hn'
  cases neg <;> cases neg'
  · exact ⟨rfl, Number.text_inj hn hn' h⟩
  · rw [hc] at h
    obtain rfl : c = '-' := (List.cons.inj h).1
    cases hdigit
  · rw [hc'] at h
    obtain rfl : c' = '-' := (List.cons.inj h).1.symm
    cases hdigit'
  · exact ⟨rfl, Number.text_inj hn hn' (List.cons.inj h).2⟩

section Constants

inductive Const where
  | null
  | bool (b : Bool)
  | char (c : Char)
  | int (n : ℤ)
  | single (bits : BitVec 32)
  | double (bits : BitVec 64)
  | decimal (coefficient : ℤ) (scale : ℕ)
  | string (s : Text)
  | enum (n : ℤ)
  deriving DecidableEq

/-- The floating-point numbers that the compiler takes for integers and for numbers with a sign. -/
structure Floats where
  ofInt : ℤ → BitVec 32
  ofNumber : Bool → Number → BitVec 64

def Ty.scalar : Ty → Ty
  | .named d [t] => if d = nullableDef then t else .named d [t]
  | t => t

def Ty.prim? : Ty → Option Prim
  | .named d [] => Prim.all.find? fun p => p.typeDef = d
  | _ => none

def Ty.isEnum : Ty → Bool
  | .named d _ => d.kind = .enum
  | .array _ _ => false

def Prim.range : Prim → Option (ℤ × ℤ)
  | .byte => some (0, 2 ^ 8 - 1)
  | .sbyte => some (-2 ^ 7, 2 ^ 7 - 1)
  | .int16 => some (-2 ^ 15, 2 ^ 15 - 1)
  | .uint16 => some (0, 2 ^ 16 - 1)
  | .int32 => some (-2 ^ 31, 2 ^ 31 - 1)
  | .uint32 => some (0, 2 ^ 32 - 1)
  | .int64 => some (-2 ^ 63, 2 ^ 63 - 1)
  | .uint64 => some (0, 2 ^ 64 - 1)
  | _ => none

def Number.int (neg : Bool) (n : Number) : ℤ :=
  if neg then -(Nat.ofDigitChars 10 n.whole 0 : ℤ) else Nat.ofDigitChars 10 n.whole 0

def Number.isInteger (n : Number) : Bool := n.fraction.isEmpty && n.exponent.isNone

def isLiteralInt (n : ℤ) : Bool := -2 ^ 63 ≤ n && n < 2 ^ 64

variable (floats : Floats)

def Prim.ofInteger (neg : Bool) (n : Number) : Prim → Option Const
  | .decimal => some (.decimal (n.int neg) 0)
  | .single => some (.single (floats.ofInt (n.int neg)))
  | .double => some (.double (floats.ofNumber neg n))
  | p => p.range.bind fun r =>
    if r.1 ≤ n.int neg ∧ n.int neg ≤ r.2 then some (.int (n.int neg)) else none

def numberConst (t : Ty) (neg : Bool) (n : Number) : Option Const :=
  if n.isInteger then
    if !isLiteralInt (n.int neg) then none
    else if t.scalar.isEnum then if n.int neg = 0 then some (.enum 0) else none
    else t.scalar.prim?.bind (Prim.ofInteger floats neg n)
  else if t.scalar.prim? = some .double then some (.double (floats.ofNumber neg n))
  else none

def wordConst (t : Ty) (w : Text) : Option Const :=
  if w = "null".toList then if t.isValueType then none else some .null
  else if t.scalar.prim? = some .boolean then
    if w = "true".toList then some (.bool true)
    else if w = "false".toList then some (.bool false)
    else none
  else none

inductive Denotes (t : Ty) : Text → Const → Prop
  | word {w : Text} {v : Const} (h : wordConst t w = some v) : Denotes t w v
  | string {body s : Text} (h : unescape '\x22' .plain body = some s) (ht : t.prim? = some .string)
    :
    Denotes t ('\x22' :: (body ++ ['\x22'])) (.string s)
  | char {body : Text} {c : Char} (h : unescape '\x27' .plain body = some [c])
    (ht : t.scalar.prim? = some .char) : Denotes t ('\x27' :: (body ++ ['\x27'])) (.char c)
  | number {neg : Bool} {n : Number} {v : Const} (hn : n.Valid)
    (h : numberConst floats t neg n = some v) : Denotes t (signText neg ++ n.text) v

def Const.isNumeric : Const → Bool
  | .int _ | .single _ | .double _ | .decimal _ _ | .enum _ => true
  | _ => false

variable {floats} {t : Ty} {v : Const} {s : Text}

theorem isNumeric_ofInteger {neg : Bool} {n : Number} {p : Prim}
    (h : p.ofInteger floats neg n = some v) : v.isNumeric = true := by
  unfold Prim.ofInteger at h
  split at h
  · cases h
    rfl
  · cases h
    rfl
  · cases h
    rfl
  · obtain ⟨r, -, h⟩ := Option.bind_eq_some_iff.1 h
    split_ifs at h
    cases h
    rfl

theorem isNumeric_numberConst {neg : Bool} {n : Number}
    (h : numberConst floats t neg n = some v) : v.isNumeric = true := by
  unfold numberConst at h
  split_ifs at h
  · cases h
    rfl
  · obtain ⟨p, -, hp⟩ := Option.bind_eq_some_iff.1 h
    exact isNumeric_ofInteger hp
  · cases h
    rfl

theorem wordConst_value {w : Text} (h : wordConst t w = some v) :
    v = .null ∧ w = "null".toList ∧ t.isValueType = false ∨
      ∃ b, v = .bool b ∧ w = (if b then "true".toList else "false".toList) ∧
        t.scalar.prim? = some .boolean := by
  unfold wordConst at h
  split_ifs at h with hnull hvalue hbool htrue hfalse
  · cases h
    exact .inl ⟨rfl, hnull, by simpa using hvalue⟩
  · cases h
    exact .inr ⟨true, rfl, htrue, hbool⟩
  · cases h
    exact .inr ⟨false, rfl, hfalse, hbool⟩

theorem Denotes.numeric (h : Denotes floats t s v) (hv : v.isNumeric = true) :
    ∃ neg n, n.Valid ∧ s = signText neg ++ n.text ∧ numberConst floats t neg n = some v := by
  cases h with
  | word h =>
    rcases wordConst_value h with ⟨rfl, -⟩ | ⟨b, rfl, -⟩
    · cases hv
    · cases hv
  | string h ht => cases hv
  | char h ht => cases hv
  | number hn h => exact ⟨_, _, hn, rfl, h⟩

theorem denotes_number_iff {neg : Bool} {n : Number} (hn : n.Valid) (hv : v.isNumeric = true) :
    Denotes floats t (signText neg ++ n.text) v ↔ numberConst floats t neg n = some v := by
  refine ⟨fun h => ?_, .number hn⟩
  obtain ⟨neg', n', hn', heq, h⟩ := h.numeric hv
  obtain ⟨rfl, rfl⟩ := signed_inj hn hn' heq
  exact h

theorem not_denotes_of_head {c : Char} (neg : Bool) (hc : c ≠ '-')
    (hdigit : c.isDigit = false) (hv : v.isNumeric = true) :
    ¬ Denotes floats t (signText neg ++ c :: s) v := by
  intro h
  obtain ⟨neg', n, hn, heq, -⟩ := h.numeric hv
  obtain ⟨d, u, hd, hd'⟩ := head_number hn
  rw [hd] at heq
  cases neg <;> cases neg' <;> simp only [signText, Bool.false_eq_true, if_false, if_true,
    List.nil_append, List.cons_append, List.cons.injEq, true_and] at heq
  · rw [heq.1, hd'] at hdigit
    cases hdigit
  · exact hc heq.1
  · rw [← heq.1] at hd'
    cases hd'
  · rw [heq.1, hd'] at hdigit
    cases hdigit

theorem Denotes.null (h : Denotes floats t s .null) : t.isValueType = false := by
  cases h with
  | word h =>
    rcases wordConst_value h with ⟨-, -, hvalue⟩ | ⟨b, hv, -⟩
    · exact hvalue
    · cases hv
  | number hn h => cases isNumeric_numberConst h

theorem Denotes.bool {b : Bool} (h : Denotes floats t s (.bool b)) :
    s = (if b then "true".toList else "false".toList) ∧ t.scalar.prim? = some .boolean := by
  cases h with
  | word h =>
    rcases wordConst_value h with ⟨hv, -⟩ | ⟨b', hv, hs, ht⟩
    · cases hv
    · cases hv
      exact ⟨hs, ht⟩
  | number hn h => cases isNumeric_numberConst h

theorem Denotes.char_length {c : Char} (h : Denotes floats t s (.char c)) : 2 ≤ s.length := by
  cases h with
  | word h =>
    rcases wordConst_value h with ⟨hv, -⟩ | ⟨b', hv, hs, ht⟩
    · cases hv
    · cases hv
  | char h ht => simp
  | number hn h => cases isNumeric_numberConst h

theorem denotes_string_iff {body s : Text} (ht : t.prim? = some .string) :
    Denotes floats t ('\x22' :: (body ++ ['\x22'])) (.string s) ↔
      unescape '\x22' .plain body = some s := by
  refine ⟨fun h => ?_, fun h => .string h ht⟩
  generalize htext : '\x22' :: (body ++ ['\x22']) = u at h
  cases h with
  | word h =>
    rcases wordConst_value h with ⟨hv, -⟩ | ⟨b', hv, hs, ht⟩
    · cases hv
    · cases hv
  | string h ht =>
    obtain rfl := List.append_cancel_right (List.cons.inj htext).2
    exact h
  | number hn h => cases isNumeric_numberConst h

end Constants

end AciX.CSharp
