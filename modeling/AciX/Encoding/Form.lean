import AciX.Sql.Text

/-!
# Forms

A form is a list of named values, written `name=value` with `&` in between, where `+` stands for a
blank and `%` with two hexadecimal digits for a byte. A value written as it stands is read back
exactly if it has no `&` and nothing that is read as something else (`decoded_eq_iff`,
`formDecode_formBody_iff`).
-/

namespace AciX

open List

abbrev Bytes := List UInt8

def utf8 (t : Text) : Bytes := t.flatMap String.utf8EncodeChar

namespace Form

def hexDigit (n : ℕ) : Char := "0123456789abcdef".toList.getD n '0'

def hexValue (b : UInt8) : Option ℕ :=
  if 48 ≤ b.toNat ∧ b.toNat ≤ 57 then some (b.toNat - 48)
  else if 97 ≤ b.toNat ∧ b.toNat ≤ 102 then some (b.toNat - 87)
  else if 65 ≤ b.toNat ∧ b.toNat ≤ 70 then some (b.toNat - 55)
  else none

def isUrlSafe (b : UInt8) : Bool :=
  (48 ≤ b.toNat && b.toNat ≤ 57) || (65 ≤ b.toNat && b.toNat ≤ 90) ||
    (97 ≤ b.toNat && b.toNat ≤ 122) || [45, 95, 46, 33, 42, 40, 41].contains b.toNat

def urlEncodeByte (b : UInt8) : Text :=
  if isUrlSafe b then [Char.ofNat b.toNat]
  else if b = 32 then ['+']
  else ['%', hexDigit (b.toNat / 16), hexDigit (b.toNat % 16)]

def urlEncode (t : Text) : Text := (utf8 t).flatMap urlEncodeByte

def replacePlus (t : Text) : Text := t.flatMap fun c => if c = '+' then ['%', '2', '0'] else [c]

def pieces (sep : UInt8) : Bytes → List Bytes
  | [] => [[]]
  | b :: rest =>
    if b = sep then [] :: pieces sep rest
    else
      match pieces sep rest with
      | [] => [[b]]
      | p :: ps => (b :: p) :: ps

def hexPair : Bytes → Option UInt8
  | h :: l :: _ =>
    match hexValue h, hexValue l with
    | some x, some y => some (UInt8.ofNat (16 * x + y))
    | _, _ => none
  | _ => none

def unescapeFrom : ℕ → Bytes → Bytes
  | _, [] => []
  | skip + 1, _ :: rest => unescapeFrom skip rest
  | 0, b :: rest =>
    if b = 43 then 32 :: unescapeFrom 0 rest
    else if b = 37 then
      match hexPair rest with
      | some v => v :: unescapeFrom 2 rest
      | none => b :: unescapeFrom 0 rest
    else b :: unescapeFrom 0 rest

def unescape (bs : Bytes) : Bytes := unescapeFrom 0 bs

def readField (piece : Bytes) : Bytes × Bytes :=
  (unescape (piece.takeWhile (· ≠ 61)), unescape ((piece.dropWhile (· ≠ 61)).drop 1))

def formDecode (body : Bytes) : List (Bytes × Bytes) :=
  ((pieces 38 body).filter (· ≠ [])).map readField

structure Field where
  name : Text
  encoded : Bool
  value : Text

def Field.text (f : Field) : Text :=
  f.name ++ '=' :: if f.encoded then urlEncode f.value else f.value

def formBody (fields : List Field) : Text := ['&'].intercalate (fields.map Field.text)

def transport (body : Text) : Bytes := utf8 (replacePlus body)

def isLiteral : Bytes → Bool
  | [] => true
  | b :: rest => b != 43 && !(b = 37 && (hexPair rest).isSome) && isLiteral rest

def IsPlain (t : Text) : Prop := '&' ∉ t ∧ isLiteral (utf8 t) = true

def IsName (t : Text) : Prop := t.all (fun c => c.isAlpha || c == '_') = true

instance (t : Text) : Decidable (IsPlain t) := inferInstanceAs (Decidable (_ ∧ _))

instance (t : Text) : Decidable (IsName t) := inferInstanceAs (Decidable (_ = true))

theorem utf8EncodeChar_of_lt {c : Char} (h : c.toNat < 128) :
    String.utf8EncodeChar c = [UInt8.ofNat c.toNat] := by
  unfold String.utf8EncodeChar
  rw [if_pos (show c.val.toNat ≤ 0x7f by exact Nat.le_of_lt_succ h)]
  rfl

theorem utf8EncodeChar_of_ge {c : Char} (h : 128 ≤ c.toNat) {b : UInt8}
    (hb : b ∈ String.utf8EncodeChar c) : 128 ≤ b.toNat := by
  have hv : ¬ c.val.toNat ≤ 0x7f := by
    have : 128 ≤ c.val.toNat := h
    omega
  unfold String.utf8EncodeChar at hb
  simp only [if_neg hv] at hb
  split_ifs at hb <;> simp only [mem_cons, not_mem_nil, or_false] at hb <;>
    rcases hb with rfl | rfl | rfl | rfl <;> simp <;> omega

theorem utf8_append (s t : Text) : utf8 (s ++ t) = utf8 s ++ utf8 t := flatMap_append

theorem utf8_cons (c : Char) (t : Text) : utf8 (c :: t) = String.utf8EncodeChar c ++ utf8 t := rfl

section Pieces

variable {sep : UInt8}

theorem pieces_ne_nil : ∀ bs : Bytes, pieces sep bs ≠ []
  | [] => by simp [pieces]
  | b :: rest => by
    rw [pieces]
    split_ifs
    · simp
    · split <;> simp

theorem pieces_append_cons : ∀ (x y : Bytes),
    pieces sep (x ++ sep :: y) = pieces sep x ++ pieces sep y
  | [], y => by simp [pieces]
  | b :: x, y => by
    rw [cons_append, pieces, pieces, pieces_append_cons x y]
    split_ifs
    · rfl
    · rcases h : pieces sep x with _ | ⟨p, ps⟩
      · exact absurd h (pieces_ne_nil x)
      · rfl

theorem pieces_of_notMem : ∀ {bs : Bytes}, sep ∉ bs → pieces sep bs = [bs]
  | [], _ => rfl
  | b :: rest, h => by
    simp only [mem_cons, not_or] at h
    rw [pieces, if_neg (Ne.symm h.1), pieces_of_notMem h.2]

end Pieces

theorem unescape_cons {b : UInt8} {rest : Bytes} (h : b ≠ 43) (h' : b ≠ 37 ∨ hexPair rest = none) :
    unescape (b :: rest) = b :: unescape rest := by
  rw [unescape, unescapeFrom, if_neg h]
  split_ifs with hb
  · rw [h'.resolve_left (not_not.2 hb)]
    rfl
  · rfl

theorem unescape_hex {h l v : UInt8} {rest : Bytes} (hv : hexPair (h :: l :: rest) = some v) :
    unescape (37 :: h :: l :: rest) = v :: unescape rest := by
  rw [unescape, unescapeFrom, if_neg (by decide), if_pos rfl, hv]
  rfl

theorem hexPair_some {bs : Bytes} {v : UInt8} (h : hexPair bs = some v) :
    ∃ h l rest, bs = h :: l :: rest ∧ (hexValue h).isSome ∧ (hexValue l).isSome := by
  match bs, h with
  | h :: l :: rest, hv =>
    unfold hexPair at hv
    rcases hh : hexValue h with _ | x
    · simp [hh] at hv
    · rcases hl : hexValue l with _ | y
      · simp [hh, hl] at hv
      · exact ⟨h, l, rest, rfl, by simp [hh], by simp [hl]⟩

theorem ne_plus_of_hexValue {b : UInt8} (h : (hexValue b).isSome) : b ≠ 43 := by
  rintro rfl
  revert h
  decide

def hexByte (n : ℕ) : UInt8 := UInt8.ofNat (hexDigit n).toNat

theorem hexValue_hexByte : ∀ {n : ℕ}, n < 16 → hexValue (hexByte n) = some n := by decide

theorem hexDigit_lt : ∀ {n : ℕ}, n < 16 →
    (hexDigit n).toNat < 128 ∧ hexDigit n ≠ '+' ∧ hexByte n ≠ 38 := by
  decide

theorem hexPair_hexByte (b : UInt8) (rest : Bytes) :
    hexPair (hexByte (b.toNat / 16) :: hexByte (b.toNat % 16) :: rest) = some b := by
  have hb := b.toNat_lt
  have h1 : hexValue (hexByte (b.toNat / 16)) = some (b.toNat / 16) := hexValue_hexByte (by omega)
  have h2 : hexValue (hexByte (b.toNat % 16)) = some (b.toNat % 16) := hexValue_hexByte (by omega)
  simp only [hexPair, h1, h2, Option.some.injEq]
  rw [show 16 * (b.toNat / 16) + b.toNat % 16 = b.toNat by omega]
  simp

theorem transport_append (s t : Text) : transport (s ++ t) = transport s ++ transport t := by
  simp only [transport, replacePlus, flatMap_append, utf8_append]

theorem transport_cons (c : Char) (t : Text) : transport (c :: t) = transport [c] ++ transport t :=
  transport_append [c] t

theorem transport_of_lt {c : Char} (h : c.toNat < 128) (hc : c ≠ '+') :
    transport [c] = [UInt8.ofNat c.toNat] := by
  simp [transport, replacePlus, hc, utf8, utf8EncodeChar_of_lt h]

theorem transport_urlEncodeByte (b : UInt8) :
    (b ≠ 43 ∧ b ≠ 37 ∧ b ≠ 38 ∧ transport (urlEncodeByte b) = [b]) ∨
      transport (urlEncodeByte b) = [37, hexByte (b.toNat / 16), hexByte (b.toNat % 16)] := by
  have hb := b.toNat_lt
  unfold urlEncodeByte
  split_ifs with hs hblank
  · refine .inl ?_
    have hne : ∀ n : UInt8, isUrlSafe n = false → b ≠ n := by
      rintro n hn rfl
      rw [hs] at hn
      cases hn
    refine ⟨hne 43 (by decide), hne 37 (by decide), hne 38 (by decide), ?_⟩
    have hlt : b.toNat < 128 := by
      simp only [isUrlSafe, Bool.or_eq_true, Bool.and_eq_true, decide_eq_true_eq,
        contains_eq_mem, mem_cons, not_mem_nil, or_false] at hs
      omega
    have hchar : (Char.ofNat b.toNat).toNat = b.toNat := by
      rw [Char.toNat_ofNat, if_pos (.inl (by omega))]
    rw [transport_of_lt (by omega), hchar]
    · simp
    · intro h
      have : b.toNat = 43 := by rw [← hchar, h]; rfl
      exact hne 43 (by decide) (UInt8.toNat_inj.1 this)
  · subst hblank
    exact .inr (by decide)
  · refine .inr ?_
    obtain ⟨h1, h2, -⟩ := hexDigit_lt (n := b.toNat / 16) (by omega)
    obtain ⟨h3, h4, -⟩ := hexDigit_lt (n := b.toNat % 16) (by omega)
    rw [transport_cons, transport_cons (hexDigit _), transport_of_lt (by decide) (by decide),
      transport_of_lt h1 h2, transport_of_lt h3 h4]
    rfl

theorem transport_encoded : ∀ bs : Bytes,
    unescape (transport (bs.flatMap urlEncodeByte)) = bs ∧
      38 ∉ transport (bs.flatMap urlEncodeByte)
  | [] => ⟨rfl, by simp [transport, replacePlus, utf8]⟩
  | b :: bs => by
    obtain ⟨ih1, ih2⟩ := transport_encoded bs
    have hb := b.toNat_lt
    rw [flatMap_cons, transport_append]
    rcases transport_urlEncodeByte b with ⟨h43, h37, h38, h⟩ | h
    · rw [h, singleton_append, unescape_cons h43 (.inl h37), ih1]
      exact ⟨rfl, by simp [h38.symm, ih2]⟩
    · rw [h, cons_append, cons_append, cons_append, nil_append,
        unescape_hex (hexPair_hexByte b _), ih1]
      have h1 := (hexDigit_lt (n := b.toNat / 16) (by omega)).2.2
      have h2 := (hexDigit_lt (n := b.toNat % 16) (by omega)).2.2
      refine ⟨rfl, ?_⟩
      simp only [mem_cons, not_or]
      exact ⟨by decide, Ne.symm h1, Ne.symm h2, ih2⟩

def escapePlus (bs : Bytes) : Bytes := bs.flatMap fun b => if b = 43 then [37, 50, 48] else [b]

theorem escapePlus_cons_plus (bs : Bytes) : escapePlus (43 :: bs) = 37 :: 50 :: 48 ::
    escapePlus bs :=
  rfl

theorem escapePlus_cons_ne {b : UInt8} (h : b ≠ 43) (bs : Bytes) :
    escapePlus (b :: bs) = b :: escapePlus bs := by
  simp [escapePlus, h]

theorem escapePlus_append (bs cs : Bytes) :
    escapePlus (bs ++ cs) = escapePlus bs ++ escapePlus cs := flatMap_append

theorem escapePlus_of_notMem {bs : Bytes} (h : 43 ∉ bs) : escapePlus bs = bs := by
  induction bs with
  | nil => rfl
  | cons b bs ih =>
    simp only [mem_cons, not_or] at h
    rw [escapePlus_cons_ne (Ne.symm h.1), ih h.2]

theorem ofNat_char_ne {c d : Char} (hc : c.toNat < 128) (hd : d.toNat < 128) (h : c ≠ d) :
    UInt8.ofNat c.toNat ≠ UInt8.ofNat d.toNat := by
  intro heq
  have := congrArg UInt8.toNat heq
  simp only [UInt8.toNat_ofNat'] at this
  rw [Nat.mod_eq_of_lt (by omega), Nat.mod_eq_of_lt (by omega)] at this
  exact h (Char.toNat_inj.1 this)

theorem mem_utf8_iff {d : Char} (hd : d.toNat < 128) {t : Text} :
    UInt8.ofNat d.toNat ∈ utf8 t ↔ d ∈ t := by
  simp only [utf8, mem_flatMap]
  refine ⟨fun ⟨c, hc, hb⟩ => ?_, fun h => ⟨d, h, by simp [utf8EncodeChar_of_lt hd]⟩⟩
  by_cases hlt : c.toNat < 128
  · rw [utf8EncodeChar_of_lt hlt, mem_singleton] at hb
    by_cases hcd : c = d
    · exact hcd ▸ hc
    · exact absurd hb.symm (ofNat_char_ne hlt hd hcd)
  · have := utf8EncodeChar_of_ge (by omega) hb
    simp only [UInt8.toNat_ofNat'] at this
    omega

theorem transport_eq : ∀ t : Text, transport t = escapePlus (utf8 t)
  | [] => rfl
  | c :: t => by
    rw [transport_cons, transport_eq t, utf8_cons, escapePlus_append]
    congr 1
    by_cases hc : c = '+'
    · subst hc
      decide
    · have hnot : 43 ∉ String.utf8EncodeChar c := by
        intro hmem
        have h : UInt8.ofNat '+'.toNat ∈ utf8 [c] := by simpa [utf8] using hmem
        exact hc (mem_singleton.1 ((mem_utf8_iff (by decide)).1 h)).symm
      rw [escapePlus_of_notMem hnot]
      simp [transport, replacePlus, hc, utf8]

theorem hexPair_escapePlus : ∀ bs : Bytes, hexPair (escapePlus bs) = hexPair bs
  | [] => rfl
  | [h] => by
    by_cases hh : h = 43
    · subst hh
      decide
    · rw [escapePlus_cons_ne hh]
      rfl
  | h :: l :: rest => by
    by_cases hh : h = 43
    · subst hh
      rw [escapePlus_cons_plus]
      rfl
    · rw [escapePlus_cons_ne hh]
      by_cases hl : l = 43
      · subst hl
        rw [escapePlus_cons_plus]
        rcases hx : hexValue h with _ | x
        · simp [hexPair, hx]
        · simp only [hexPair, hx]
          rfl
      · rw [escapePlus_cons_ne hl]
        simp only [hexPair]

theorem unescape_escapePlus_cons (b : UInt8) (rest : Bytes) :
    (b = 43 ∧ unescape (escapePlus (b :: rest)) = 32 :: unescape (escapePlus rest)) ∨
    (b = 37 ∧ ∃ h l rest' v, rest = h :: l :: rest' ∧ hexPair rest = some v ∧
      unescape (escapePlus (b :: rest)) = v :: unescape (escapePlus rest')) ∨
    (b ≠ 43 ∧ (b ≠ 37 ∨ hexPair rest = none) ∧
      unescape (escapePlus (b :: rest)) = b :: unescape (escapePlus rest)) := by
  by_cases h43 : b = 43
  · subst h43
    refine .inl ⟨rfl, ?_⟩
    rw [escapePlus_cons_plus]
    exact unescape_hex rfl
  · rw [escapePlus_cons_ne h43]
    by_cases h37 : b = 37
    · subst h37
      rcases hp : hexPair rest with _ | v
      · refine .inr (.inr ⟨h43, .inr rfl, unescape_cons h43 (.inr ?_)⟩)
        rw [hexPair_escapePlus, hp]
      · obtain ⟨h, l, rest', rfl, hh, hl⟩ := hexPair_some hp
        refine .inr (.inl ⟨rfl, h, l, rest', v, rfl, rfl, ?_⟩)
        have hp' := hexPair_escapePlus (h :: l :: rest')
        rw [escapePlus_cons_ne (ne_plus_of_hexValue hh),
          escapePlus_cons_ne (ne_plus_of_hexValue hl)]
          at hp' ⊢
        exact unescape_hex (hp'.trans hp)
    · exact .inr (.inr ⟨h43, .inl h37, unescape_cons h43 (.inl h37)⟩)

theorem length_unescape_le (bs : Bytes) : (unescape (escapePlus bs)).length ≤ bs.length := by
  match bs with
  | [] => exact le_rfl
  | b :: rest =>
    rcases unescape_escapePlus_cons b rest with ⟨-, h⟩ | ⟨-, x, y, rest', v, rfl, -, h⟩ | ⟨-, -, h⟩
    · have := length_unescape_le rest
      simp only [h, length_cons]
      omega
    · have := length_unescape_le rest'
      simp only [h, length_cons]
      omega
    · have := length_unescape_le rest
      simp only [h, length_cons]
      omega
termination_by bs.length

theorem unescape_escapePlus_iff : ∀ bs : Bytes,
    unescape (escapePlus bs) = bs ↔ isLiteral bs = true
  | [] => iff_of_true rfl rfl
  | b :: rest => by
    rcases unescape_escapePlus_cons b rest with ⟨rfl, h⟩ | ⟨rfl, x, y, rest', v, rfl, hv, h⟩ |
      ⟨h43, h37, h⟩
    · rw [h]
      refine iff_of_false (fun heq => ?_) (by simp [isLiteral])
      exact absurd (List.cons.inj heq).1 (by decide)
    · rw [h]
      refine iff_of_false (fun heq => ?_) (by simp [isLiteral, hv])
      have := length_unescape_le rest'
      have hlen := congrArg List.length heq
      simp only [length_cons] at hlen
      omega
    · have hb : (b != 43 && !(b = 37 && (hexPair rest).isSome)) = true := by
        rcases h37 with h37 | h37 <;> simp [h43, h37]
      rw [h, isLiteral, hb, Bool.true_and, ← unescape_escapePlus_iff rest]
      simp

theorem unescape_escapePlus_of_notMem {bs : Bytes} (h : 37 ∉ bs) :
    unescape (escapePlus bs) = bs.map fun b => if b = 43 then 32 else b := by
  induction bs with
  | nil => rfl
  | cons b bs ih =>
    simp only [mem_cons, not_or] at h
    rcases unescape_escapePlus_cons b bs with ⟨rfl, hb⟩ | ⟨rfl, -⟩ | ⟨h43, -, hb⟩
    · rw [hb, ih h.2]
      rfl
    · exact absurd rfl h.1
    · rw [hb, ih h.2, map_cons, if_neg h43]

section Fields

variable {f : Field} {fields : List Field}

def Field.decoded (f : Field) : List (Bytes × Bytes) := formDecode (transport f.text)

theorem transport_name {t : Text} (h : IsName t) :
    transport t = utf8 t ∧ 38 ∉ utf8 t ∧ 61 ∉ utf8 t ∧ unescape (utf8 t) = utf8 t := by
  have hne : ∀ d : Char, d.toNat < 128 → d.isAlpha = false → d ≠ '_' →
      UInt8.ofNat d.toNat ∉ utf8 t := by
    intro d hd ha hu hmem
    have := all_eq_true.1 h d ((mem_utf8_iff hd).1 hmem)
    simp [ha, hu] at this
  have h43 : 43 ∉ utf8 t := hne '+' (by decide) (by decide) (by decide)
  have h37 : 37 ∉ utf8 t := hne '%' (by decide) (by decide) (by decide)
  refine ⟨by rw [transport_eq, escapePlus_of_notMem h43],
    hne '&' (by decide) (by decide) (by decide), hne '=' (by decide) (by decide) (by decide), ?_⟩
  generalize utf8 t = bs at h43 h37
  clear hne h
  induction bs with
  | nil => rfl
  | cons b bs ih =>
    simp only [mem_cons, not_or] at h43 h37
    rw [unescape_cons (Ne.symm h43.1) (.inl (Ne.symm h37.1)), ih h43.2 h37.2]

section

variable (h : IsName f.name)
include h

theorem transport_text : transport f.text
    = utf8 f.name ++ 61 :: transport (if f.encoded then urlEncode f.value else f.value) := by
  rw [Field.text, transport_append, (transport_name h).1, transport_cons,
    transport_of_lt (by decide) (by decide)]
  rfl

theorem readField_eq (v : Bytes) :
    readField (utf8 f.name ++ 61 :: v) = (utf8 f.name, unescape v) := by
  obtain ⟨-, -, h61, hname⟩ := transport_name h
  have hall : ∀ b ∈ utf8 f.name, decide (b ≠ 61) = true := by
    intro b hb
    simp only [decide_eq_true_eq]
    rintro rfl
    exact h61 hb
  simp only [readField, takeWhile_append_of_pos hall, dropWhile_append_of_pos hall,
    takeWhile_cons, dropWhile_cons]
  simp [hname]

theorem decoded_of_notMem
    (hv : 38 ∉ transport (if f.encoded then urlEncode f.value else f.value)) :
    f.decoded = [(utf8 f.name,
      unescape (transport (if f.encoded then urlEncode f.value else f.value)))] := by
  have hnot : 38 ∉ transport f.text := by
    rw [transport_text h]
    simp [(transport_name h).2.1, hv]
  rw [Field.decoded, formDecode, pieces_of_notMem hnot, transport_text h]
  simp [readField_eq h]

theorem decoded_encoded (he : f.encoded = true) :
    f.decoded = [(utf8 f.name, utf8 f.value)] := by
  obtain ⟨h1, h2⟩ := transport_encoded (utf8 f.value)
  rw [decoded_of_notMem h (by rw [he]; exact h2), he]
  simp only [if_true, urlEncode, h1]

end

theorem notMem_escapePlus {b : UInt8} (h37 : b ≠ 37) (h50 : b ≠ 50) (h48 : b ≠ 48) {bs : Bytes}
    (h : b ∉ bs) : b ∉ escapePlus bs := by
  intro hm
  obtain ⟨c, hc, hb⟩ := mem_flatMap.1 hm
  split_ifs at hb
  · simp [h37, h50, h48] at hb
  · exact h (mem_singleton.1 hb ▸ hc)

section

variable (h : IsName f.name)
include h

theorem decoded_raw (he : f.encoded = false) (hv : '&' ∉ f.value) :
    f.decoded = [(utf8 f.name, unescape (escapePlus (utf8 f.value)))] := by
  have hnot : 38 ∉ utf8 f.value := fun hm => hv ((mem_utf8_iff (d := '&') (by decide)).1 hm)
  have heq : transport (if f.encoded then urlEncode f.value else f.value)
      = escapePlus (utf8 f.value) := by
    rw [he, transport_eq]
    rfl
  rw [decoded_of_notMem h, heq]
  rw [heq]
  exact notMem_escapePlus (by decide) (by decide) (by decide) hnot

theorem decoded_cut (he : f.encoded = false) (hv : '&' ∈ f.value) :
    f.decoded ≠ [(utf8 f.name, utf8 f.value)] := by
  obtain ⟨w, u, hvalue, hw⟩ := eq_append_cons_of_mem hv
  have htext : transport f.text
      = (utf8 f.name ++ 61 :: escapePlus (utf8 w)) ++ 38 :: transport u := by
    rw [transport_text h, he]
    simp only [Bool.false_eq_true, if_false]
    rw [hvalue, transport_append, transport_cons, transport_of_lt (by decide) (by decide),
      transport_eq w, append_assoc]
    rfl
  have hnot : 38 ∉ utf8 f.name ++ 61 :: escapePlus (utf8 w) := by
    have hw' : 38 ∉ utf8 w := fun hm => hw ((mem_utf8_iff (d := '&') (by decide)).1 hm)
    have := notMem_escapePlus (b := 38) (by decide) (by decide) (by decide) hw'
    simp [(transport_name h).2.1, this]
  rw [Field.decoded, formDecode, htext, pieces_append_cons, pieces_of_notMem hnot,
    singleton_append, filter_cons, if_pos (by simp), map_cons, readField_eq h]
  intro heq
  have hval := (Prod.mk.inj (List.cons.inj heq).1).2
  have hle := length_unescape_le (utf8 w)
  rw [hval, hvalue, utf8_append, utf8_cons, utf8EncodeChar_of_lt (by decide)] at hle
  simp only [length_append, length_cons] at hle
  omega

theorem decoded_eq_iff :
    f.decoded = [(utf8 f.name, utf8 f.value)] ↔ f.encoded = true ∨ IsPlain f.value := by
  rcases he : f.encoded with _ | _
  · by_cases hv : '&' ∈ f.value
    · exact iff_of_false (decoded_cut h he hv) (by simp [IsPlain, hv])
    · rw [decoded_raw h he hv, ← singleton_inj.eq]
      simp [IsPlain, hv, unescape_escapePlus_iff]
  · exact iff_of_true (decoded_encoded h he) (.inl rfl)

theorem one_le_length_decoded : 1 ≤ f.decoded.length := by
  by_cases hc : 38 ∈ transport (if f.encoded then urlEncode f.value else f.value)
  · obtain ⟨w, u, hvalue, hw⟩ := eq_append_cons_of_mem hc
    have hnot : 38 ∉ utf8 f.name ++ 61 :: w := by simp [(transport_name h).2.1, hw]
    rw [Field.decoded, formDecode, transport_text h, hvalue,
      show utf8 f.name ++ 61 :: (w ++ 38 :: u) = (utf8 f.name ++ 61 :: w) ++ 38 :: u by simp,
      pieces_append_cons, pieces_of_notMem hnot, singleton_append, filter_cons,
      if_pos (by simp), map_cons, length_cons]
    omega
  · rw [decoded_of_notMem h hc]
    simp

end

theorem formDecode_append (x y : Bytes) :
    formDecode (x ++ 38 :: y) = formDecode x ++ formDecode y := by
  simp [formDecode, pieces_append_cons]

theorem formDecode_formBody : ∀ fields : List Field,
    formDecode (transport (formBody fields)) = fields.flatMap Field.decoded
  | [] => rfl
  | [f] => by simp [formBody, Field.decoded]
  | f :: g :: fields => by
    have hbody : formBody (f :: g :: fields) = f.text ++ '&' :: formBody (g :: fields) := by
      simp [formBody, List.intercalate]
    rw [hbody, transport_append, transport_cons, transport_of_lt (by decide) (by decide),
      singleton_append]
    show formDecode (transport f.text ++ 38 :: transport (formBody (g :: fields))) = _
    rw [formDecode_append, formDecode_formBody (g :: fields)]
    rfl

theorem length_le_flatMap_decoded : ∀ {fields : List Field}, (∀ f ∈ fields, IsName f.name) →
    fields.length ≤ (fields.flatMap Field.decoded).length
  | [], _ => le_rfl
  | f :: fields, h => by
    have h1 := one_le_length_decoded (h f (by simp))
    have hrest : ∀ g ∈ fields, IsName g.name := fun g hg => h g (by simp [hg])
    have h2 := length_le_flatMap_decoded hrest
    simp only [flatMap_cons, length_append, length_cons]
    omega

/-- A form is read back, each parameter once and with its value, exactly if every field was encoded
or has a plain value. -/
theorem formDecode_formBody_iff : ∀ {fields : List Field}, (∀ f ∈ fields, IsName f.name) →
    (formDecode (transport (formBody fields)) = fields.map (fun f => (utf8 f.name, utf8 f.value)) ↔
      ∀ f ∈ fields, f.encoded = true ∨ IsPlain f.value)
  | [], _ => by
    rw [formDecode_formBody]
    simp
  | f :: fields, h => by
    have hf := h f (by simp)
    have hrest : ∀ g ∈ fields, IsName g.name := fun g hg => h g (by simp [hg])
    have ih := formDecode_formBody_iff hrest
    have h1 := one_le_length_decoded hf
    have h2 := length_le_flatMap_decoded hrest
    rw [formDecode_formBody] at ih ⊢
    rw [forall_mem_cons, ← ih, ← decoded_eq_iff hf, flatMap_cons, map_cons]
    refine ⟨fun heq => ?_, fun ⟨h3, h4⟩ => by rw [h3, h4]; rfl⟩
    have hlen := congrArg List.length heq
    simp only [length_append, length_cons, length_map] at hlen
    have hone : f.decoded.length = 1 := by omega
    obtain ⟨p, hp⟩ := length_eq_one_iff.1 hone
    rw [hp, singleton_append, List.cons.injEq] at heq
    exact ⟨by rw [hp, heq.1], heq.2⟩

end Fields

end Form

end AciX
