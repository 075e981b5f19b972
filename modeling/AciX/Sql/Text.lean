import Mathlib

/-!
# Text as the server stores and compares it

A text is a list of any characters. `SQL_Latin1_General_CP1_CI_AS` compares those of code page 1252
without regard to letter case and to trailing blanks, and keeps accents apart. A `VARCHAR(n)`
parameter drops what is past its length; a `CHAR(n)` one is filled up with blanks as well. Where a
result depends on characters outside the code page, their conversion is a parameter (`CodePage`,
`ContentEnv.encode`); elsewhere a text that reaches a `VARCHAR` is taken to be of the code page.
-/

namespace AciX

abbrev Text := List Char

namespace Sql

/-- The lower-case form of a letter of the code page; other characters are their own. -/
def foldChar (c : Char) : Char :=
  if 'A' ≤ c ∧ c ≤ 'Z' ∨ 'À' ≤ c ∧ c ≤ 'Þ' ∧ c ≠ '×' then Char.ofNat (c.toNat + 32)
  else if c = 'Š' then 'š'
  else if c = 'Œ' then 'œ'
  else if c = 'Ž' then 'ž'
  else if c = 'Ÿ' then 'ÿ'
  else c

def rtrim (s : Text) : Text := s.rdropWhile (· == ' ')

def len (s : Text) : ℕ := (rtrim s).length

def collate (s : Text) : Text := (rtrim s).map foldChar

def textEq (s t : Text) : Bool := collate s == collate t

def varchar (n : ℕ) (s : Text) : Text := s.take n

def char (n : ℕ) (s : Text) : Text := (s.take n).rightpad n ' '

theorem textEq_iff {s t : Text} : textEq s t = true ↔ collate s = collate t := by
  simp [textEq]

@[simp] theorem textEq_self (s : Text) : textEq s s = true := by simp [textEq]

theorem textEq_symm {s t : Text} (h : textEq s t = true) : textEq t s = true := by
  rw [textEq_iff] at h ⊢
  exact h.symm

theorem textEq_trans {s t u : Text} (h : textEq s t = true) (h' : textEq t u = true) :
    textEq s u = true := by
  rw [textEq_iff] at h h' ⊢
  exact h.trans h'

theorem char_of_length {n : ℕ} {s : Text} (h : s.length = n) : char n s = s := by
  subst h
  simp [char, List.rightpad]

theorem length_char (n : ℕ) (s : Text) : (char n s).length = n := by
  simp [char, List.rightpad]

end Sql

def Text.contains (s pat : Text) : Bool := s.tails.any (pat.isPrefixOf ·)

end AciX
