import AciX.Encoding.Form

/-!
# Base64

Three bytes are four digits of six bits each; a rest of one or two bytes is filled up with `=`.
`base64Decode` reads the standard alphabet and nothing else, and reads back what `toBase64String`
has written.
-/

namespace AciX.Base64

open List

def digit (n : ℕ) : Char :=
  "ABCDEFGHIJKLMNOPQRSTUVWXYZabcdefghijklmnopqrstuvwxyz0123456789+/".toList.getD n 'A'

def digitValue (b : UInt8) : Option ℕ :=
  if 65 ≤ b.toNat ∧ b.toNat ≤ 90 then some (b.toNat - 65)
  else if 97 ≤ b.toNat ∧ b.toNat ≤ 122 then some (b.toNat - 71)
  else if 48 ≤ b.toNat ∧ b.toNat ≤ 57 then some (b.toNat + 4)
  else if b = 43 then some 62
  else if b = 47 then some 63
  else none

def sextets : Bytes → List ℕ
  | [] => []
  | [a] => [a.toNat / 4, a.toNat % 4 * 16]
  | [a, b] => [a.toNat / 4, a.toNat % 4 * 16 + b.toNat / 16, b.toNat % 16 * 4]
  | a :: b :: c :: rest =>
    a.toNat / 4 :: (a.toNat % 4 * 16 + b.toNat / 16) :: (b.toNat % 16 * 4 + c.toNat / 64) ::
      c.toNat % 64 :: sextets rest

def toBase64String : Bytes → Text
  | [] => []
  | [a] => [digit (a.toNat / 4), digit (a.toNat % 4 * 16), '=', '=']
  | [a, b] =>
    [digit (a.toNat / 4), digit (a.toNat % 4 * 16 + b.toNat / 16), digit (b.toNat % 16 * 4), '=']
  | a :: b :: c :: rest =>
    digit (a.toNat / 4) :: digit (a.toNat % 4 * 16 + b.toNat / 16) ::
      digit (b.toNat % 16 * 4 + c.toNat / 64) :: digit (c.toNat % 64) :: toBase64String rest

def group (x y z t : ℕ) : Bytes :=
  [UInt8.ofNat (x * 4 + y / 16), UInt8.ofNat (y % 16 * 16 + z / 4), UInt8.ofNat (z % 4 * 64 + t)]

def base64Decode : Bytes → Option Bytes
  | [] => some []
  | p :: q :: r :: s :: rest =>
    if s = 61 ∧ rest = [] then
      if r = 61 then do
        let x ← digitValue p
        let y ← digitValue q
        pure [UInt8.ofNat (x * 4 + y / 16)]
      else do
        let x ← digitValue p
        let y ← digitValue q
        let z ← digitValue r
        pure [UInt8.ofNat (x * 4 + y / 16), UInt8.ofNat (y % 16 * 16 + z / 4)]
    else do
      let x ← digitValue p
      let y ← digitValue q
      let z ← digitValue r
      let t ← digitValue s
      let bytes ← base64Decode rest
      pure (group x y z t ++ bytes)
  | _ => none

theorem digitValue_digit : ∀ {n : ℕ}, n < 64 →
    digitValue (UInt8.ofNat (digit n).toNat) = some n ∧ (digit n).toNat < 128 ∧
      UInt8.ofNat (digit n).toNat ≠ 61 := by
  decide +kernel

theorem digit_eq_plus : ∀ {n : ℕ}, n < 64 → (digit n = '+' ↔ n = 62) := by decide +kernel

theorem digit_plain : ∀ {n : ℕ}, n < 64 → digit n ≠ '&' ∧ digit n ≠ '%' := by decide +kernel

theorem utf8_digit_cons {n : ℕ} (h : n < 64) (t : Text) :
    utf8 (digit n :: t) = UInt8.ofNat (digit n).toNat :: utf8 t := by
  rw [Form.utf8_cons, Form.utf8EncodeChar_of_lt (digitValue_digit h).2.1, singleton_append]

theorem sextets_lt : ∀ (bs : Bytes), ∀ n ∈ sextets bs, n < 64
  | [], n, h => by cases h
  | [a], n, h => by
    have ha := a.toNat_lt
    simp only [sextets, mem_cons, not_mem_nil, or_false] at h
    omega
  | [a, b], n, h => by
    have ha := a.toNat_lt
    have hb := b.toNat_lt
    simp only [sextets, mem_cons, not_mem_nil, or_false] at h
    omega
  | a :: b :: c :: rest, n, h => by
    have ha := a.toNat_lt
    have hb := b.toNat_lt
    have hc := c.toNat_lt
    simp only [sextets, mem_cons] at h
    rcases h with h | h | h | h | h
    · omega
    · omega
    · omega
    · omega
    · exact sextets_lt rest n h

theorem mem_toBase64String : ∀ {bs : Bytes} {c : Char}, c ∈ toBase64String bs →
    c = '=' ∨ ∃ n ∈ sextets bs, c = digit n
  | [], c, h => by cases h
  | [a], c, h => by
    simp only [toBase64String, mem_cons, not_mem_nil, or_false] at h
    rcases h with rfl | rfl | rfl | rfl <;> simp [sextets]
  | [a, b], c, h => by
    simp only [toBase64String, mem_cons, not_mem_nil, or_false] at h
    rcases h with rfl | rfl | rfl | rfl <;> simp [sextets]
  | a :: b :: d :: rest, c, h => by
    simp only [toBase64String, mem_cons] at h
    rcases h with rfl | rfl | rfl | rfl | h
    · exact .inr ⟨_, by simp [sextets], rfl⟩
    · exact .inr ⟨_, by simp [sextets], rfl⟩
    · exact .inr ⟨_, by simp [sextets], rfl⟩
    · exact .inr ⟨_, by simp [sextets], rfl⟩
    · refine (mem_toBase64String h).imp_right fun ⟨n, hn, hc⟩ => ⟨n, ?_, hc⟩
      simp [sextets, hn]

theorem digit_mem_toBase64String : ∀ {bs : Bytes} {n : ℕ}, n ∈ sextets bs →
    digit n ∈ toBase64String bs
  | [], n, h => by cases h
  | [a], n, h => by
    simp only [sextets, mem_cons, not_mem_nil, or_false] at h
    rcases h with rfl | rfl <;> simp [toBase64String]
  | [a, b], n, h => by
    simp only [sextets, mem_cons, not_mem_nil, or_false] at h
    rcases h with rfl | rfl | rfl <;> simp [toBase64String]
  | a :: b :: d :: rest, n, h => by
    simp only [sextets, mem_cons] at h
    rcases h with rfl | rfl | rfl | rfl | h
    · simp [toBase64String]
    · simp [toBase64String]
    · simp [toBase64String]
    · simp [toBase64String]
    · simp [toBase64String, digit_mem_toBase64String h]

theorem plus_mem_iff {bs : Bytes} : '+' ∈ toBase64String bs ↔ 62 ∈ sextets bs := by
  refine ⟨fun h => ?_, fun h => ?_⟩
  · rcases mem_toBase64String h with h | ⟨n, hn, h⟩
    · exact absurd h (by decide)
    · rwa [(digit_eq_plus (sextets_lt bs n hn)).1 h.symm] at hn
  · have := digit_mem_toBase64String h
    rwa [(digit_eq_plus (by decide)).2 rfl] at this

theorem toBase64String_plain (bs : Bytes) : '&' ∉ toBase64String bs ∧ '%' ∉ toBase64String bs := by
  refine ⟨fun h => ?_, fun h => ?_⟩
  all_goals
    rcases mem_toBase64String h with h | ⟨n, hn, h⟩
    · exact absurd h (by decide)
    · have := digit_plain (sextets_lt bs n hn)
      simp [← h] at this

theorem base64Decode_toBase64String : ∀ bs : Bytes,
    base64Decode (utf8 (toBase64String bs)) = some bs
  | [] => rfl
  | [a] => by
    have ha := a.toNat_lt
    have h1 : a.toNat / 4 < 64 := by omega
    have h2 : a.toNat % 4 * 16 < 64 := by omega
    rw [toBase64String, utf8_digit_cons h1, utf8_digit_cons h2,
      show utf8 ['=', '='] = [61, 61] by decide, base64Decode, if_pos ⟨rfl, rfl⟩, if_pos rfl,
      (digitValue_digit h1).1, (digitValue_digit h2).1]
    simp only [Option.bind_eq_bind, Option.bind_some, Option.pure_def, Option.some.injEq,
      List.cons.injEq, and_true]
    rw [show a.toNat / 4 * 4 + a.toNat % 4 * 16 / 16 = a.toNat by omega]
    simp
  | [a, b] => by
    have ha := a.toNat_lt
    have hb := b.toNat_lt
    have h1 : a.toNat / 4 < 64 := by omega
    have h2 : a.toNat % 4 * 16 + b.toNat / 16 < 64 := by omega
    have h3 : b.toNat % 16 * 4 < 64 := by omega
    rw [toBase64String, utf8_digit_cons h1, utf8_digit_cons h2, utf8_digit_cons h3,
      show utf8 ['='] = [61] by decide, base64Decode, if_pos ⟨rfl, rfl⟩,
      if_neg (digitValue_digit h3).2.2, (digitValue_digit h1).1, (digitValue_digit h2).1,
      (digitValue_digit h3).1]
    simp only [Option.bind_eq_bind, Option.bind_some, Option.pure_def, Option.some.injEq,
      List.cons.injEq, and_true]
    rw [show a.toNat / 4 * 4 + (a.toNat % 4 * 16 + b.toNat / 16) / 16 = a.toNat by omega,
      show (a.toNat % 4 * 16 + b.toNat / 16) % 16 * 16 + b.toNat % 16 * 4 / 4 = b.toNat by omega]
    simp
  | a :: b :: c :: rest => by
    have ha := a.toNat_lt
    have hb := b.toNat_lt
    have hc := c.toNat_lt
    have h1 : a.toNat / 4 < 64 := by omega
    have h2 : a.toNat % 4 * 16 + b.toNat / 16 < 64 := by omega
    have h3 : b.toNat % 16 * 4 + c.toNat / 64 < 64 := by omega
    have h4 : c.toNat % 64 < 64 := by omega
    rw [toBase64String, utf8_digit_cons h1, utf8_digit_cons h2, utf8_digit_cons h3,
      utf8_digit_cons h4, base64Decode, if_neg fun h => (digitValue_digit h4).2.2 h.1,
      (digitValue_digit h1).1, (digitValue_digit h2).1, (digitValue_digit h3).1,
      (digitValue_digit h4).1, base64Decode_toBase64String rest]
    simp only [Option.bind_eq_bind, Option.bind_some, Option.pure_def, Option.some.injEq, group,
      cons_append, nil_append, List.cons.injEq, and_true]
    rw [show a.toNat / 4 * 4 + (a.toNat % 4 * 16 + b.toNat / 16) / 16 = a.toNat by omega,
      show (a.toNat % 4 * 16 + b.toNat / 16) % 16 * 16 + (b.toNat % 16 * 4 + c.toNat / 64) / 4
        = b.toNat by omega,
      show (b.toNat % 16 * 4 + c.toNat / 64) % 4 * 64 + c.toNat % 64 = c.toNat by omega]
    simp

theorem mem_of_base64Decode : ∀ {bs out : Bytes}, base64Decode bs = some out →
    ∀ b ∈ bs, b = 61 ∨ (digitValue b).isSome
  | [], _, _, b, hb => by cases hb
  | [_], _, h, _, _ => by cases h
  | [_, _], _, h, _, _ => by cases h
  | [_, _, _], _, h, _, _ => by cases h
  | p :: q :: r :: s :: rest, out, h, b, hb => by
    rw [base64Decode] at h
    split_ifs at h with hs hr
    all_goals simp only [Option.bind_eq_bind, Option.bind_eq_some_iff] at h
    · obtain ⟨x, hx, y, hy, -⟩ := h
      obtain ⟨rfl, rfl⟩ := hs
      subst hr
      simp only [mem_cons, not_mem_nil, or_false] at hb
      rcases hb with rfl | rfl | rfl | rfl <;> simp [hx, hy]
    · obtain ⟨x, hx, y, hy, z, hz, -⟩ := h
      obtain ⟨rfl, rfl⟩ := hs
      simp only [mem_cons, not_mem_nil, or_false] at hb
      rcases hb with rfl | rfl | rfl | rfl <;> simp [hx, hy, hz]
    · obtain ⟨x, hx, y, hy, z, hz, t, ht, bytes, hbytes, -⟩ := h
      simp only [mem_cons] at hb
      rcases hb with rfl | rfl | rfl | rfl | hb
      · simp [hx]
      · simp [hy]
      · simp [hz]
      · simp [ht]
      · exact mem_of_base64Decode hbytes b hb

end AciX.Base64
