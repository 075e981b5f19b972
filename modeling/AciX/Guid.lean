import AciX.Sql.Text

/-!
# Unique identifiers

`Guid.ToString` writes 36 characters in lower case. The server reads a text as an identifier
whatever the case of its letters, with or without an opening brace, and drops what follows the 36
characters.
-/

namespace AciX

def hexDigit (c : Char) : Bool := ('0' ≤ c && c ≤ '9') || ('a' ≤ c && c ≤ 'f')

def guidShape (t : Text) : Bool :=
  t.length == 36 && (t.zipIdx.all fun p =>
    if p.2 == 8 || p.2 == 13 || p.2 == 18 || p.2 == 23 then p.1 == '-' else hexDigit p.1)

structure Guid where
  text : Text
  shape : guidShape text = true
  deriving DecidableEq

namespace Guid

theorem shape_first : guidShape "0f8fad5b-d9cb-469f-a165-70867728950e".toList = true := by decide

theorem shape_second : guidShape "7c9e6679-7425-40de-944b-e07fc1f90ae7".toList = true := by decide

def foldHex (c : Char) : Char := if 'A' ≤ c ∧ c ≤ 'F' then Char.ofNat (c.toNat + 32) else c

def unbrace : Text → Text
  | '\x7b' :: t => t
  | t => t

def parse (s : Text) : Option Guid :=
  if h : guidShape (((unbrace s).take 36).map foldHex) then some ⟨_, h⟩ else none

theorem length_text (g : Guid) : g.text.length = 36 := by
  have h := g.shape
  simp only [guidShape, Bool.and_eq_true, beq_iff_eq] at h
  exact h.1

theorem mem_text {g : Guid} {c : Char} (h : c ∈ g.text) : c = '-' ∨ hexDigit c = true := by
  have hs := g.shape
  simp only [guidShape, Bool.and_eq_true, List.all_eq_true] at hs
  obtain ⟨i, hi, rfl⟩ := List.getElem_of_mem h
  have := hs.2 (g.text[i], i) (List.mem_zipIdx_iff_getElem?.2 (by simp [hi]))
  split_ifs at this
  · exact .inl (by simpa using this)
  · exact .inr this

theorem foldHex_of_mem {g : Guid} {c : Char} (h : c ∈ g.text) : foldHex c = c := by
  unfold foldHex
  rw [if_neg]
  rintro ⟨h1, h2⟩
  rcases mem_text h with rfl | hd
  · exact absurd h1 (by decide)
  · simp only [hexDigit, Bool.or_eq_true, Bool.and_eq_true, decide_eq_true_eq] at hd
    rcases hd with ⟨-, h3⟩ | ⟨h3, -⟩
    · exact absurd (h1.trans h3) (by decide)
    · exact absurd (h3.trans h2) (by decide)

theorem unbrace_text (g : Guid) : unbrace g.text = g.text := by
  rcases ht : g.text with _ | ⟨c, t⟩
  · rfl
  · unfold unbrace
    split
    · rename_i heq
      injection heq with hc
      rcases mem_text (g := g) (c := c) (by simp [ht]) with h | h <;> rw [hc] at h <;>
        exact absurd h (by decide)
    · rfl

@[simp] theorem parse_text (g : Guid) : parse g.text = some g := by
  have : ((unbrace g.text).take 36).map foldHex = g.text := by
    rw [unbrace_text, List.take_of_length_le g.length_text.le]
    calc g.text.map foldHex = g.text.map id := List.map_congr_left fun c hc => foldHex_of_mem hc
      _ = g.text := List.map_id _
  unfold parse
  rw [dif_pos (by rw [this]; exact g.shape)]
  congr 1
  cases g
  simpa using this

theorem text_injective : Function.Injective text := by
  intro g g' h
  have := parse_text g
  rw [h, parse_text] at this
  exact (Option.some.inj this).symm

end Guid

end AciX
