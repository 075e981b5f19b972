import AciX.Sql.Text

/-!
# The code page of the server

A .NET string is sent as Unicode and converted where it meets a `VARCHAR` parameter. What the code
page has no character for becomes a question mark or the nearest character it has. `CodePage` stands
for any such conversion.
-/

namespace AciX.Sql

/-- A conversion to a code page: ASCII is part of every one, and its own characters are kept. -/
structure CodePage where
  convert : Char → Text
  ascii : ∀ c : Char, c.toNat < 128 → convert c = [c]
  kept : ∀ c, ∀ d ∈ convert c, convert d = [d]

namespace CodePage

variable (cp : CodePage) {s : Text}

/-- The text as a `VARCHAR` parameter receives it. -/
def text (s : Text) : Text := s.flatMap cp.convert

/-- The characters of the text are all in the code page. -/
def Holds (s : Text) : Prop := ∀ c ∈ s, cp.convert c = [c]

variable {cp}

theorem Holds.text_eq (h : cp.Holds s) : cp.text s = s := by
  rw [text, List.flatMap_congr h]
  simp

theorem holds_of_subset {t : Text} (h : ∀ c ∈ s, c ∈ cp.text t) : cp.Holds s := by
  intro c hc
  obtain ⟨d, -, hd⟩ := List.mem_flatMap.1 (h c hc)
  exact cp.kept d c hd

theorem holds_of_ascii (h : ∀ c ∈ s, c.toNat < 128) : cp.Holds s := fun c hc => cp.ascii c (h c hc)

theorem holds_append {t : Text} : cp.Holds (s ++ t) ↔ cp.Holds s ∧ cp.Holds t :=
  List.forall_mem_append

end CodePage

/-- The code page that has no more than ASCII. -/
def asciiPage : CodePage where
  convert c := if c.toNat < 128 then [c] else ['?']
  ascii _ h := if_pos h
  kept c d hd := by
    split_ifs at hd with h
    · rw [List.mem_singleton.1 hd, if_pos h]
    · rw [List.mem_singleton.1 hd]
      rfl

end AciX.Sql
