import AciX.Sql.Text

/-!
# `LIKE`

In a pattern `%` stands for any characters, `_` for one, and a bracket for one of the characters and
ranges in it, or for one that is not if it starts with `^`. Any other character stands for itself,
as the collation compares it. Blanks at the end of the text do not count, blanks in the pattern do.
-/

namespace AciX.Sql

inductive PatternItem where
  | any
  | one
  | oneOf (negated : Bool) (chars : Text)
  | exactly (c : Char)
  | never

def bracket : Text → PatternItem
  | '^' :: chars => .oneOf true chars
  | chars => .oneOf false chars

def patternItems : Option Text → Text → List PatternItem
  | none, [] => []
  | some _, [] => [.never]
  | none, '%' :: p => .any :: patternItems none p
  | none, '_' :: p => .one :: patternItems none p
  | none, '[' :: p => patternItems (some []) p
  | none, c :: p => .exactly c :: patternItems none p
  | some chars, ']' :: p => bracket chars :: patternItems none p
  | some chars, c :: p => patternItems (some (chars ++ [c])) p

def inBracket (c : Char) : Text → Bool
  | a :: '-' :: b :: rest =>
    (foldChar a ≤ foldChar c && foldChar c ≤ foldChar b) || inBracket c rest
  | a :: rest => foldChar a = foldChar c || inBracket c rest
  | [] => false

def likeItems : List PatternItem → Text → Bool
  | [], t => t.all (· = ' ')
  | .any :: p, t => t.tails.any (likeItems p)
  | .one :: p, _ :: t => likeItems p t
  | .oneOf negated chars :: p, c :: t => (inBracket c chars != negated) && likeItems p t
  | .exactly c :: p, d :: t => foldChar c = foldChar d && likeItems p t
  | _ :: _, _ => false

def like (text pattern : Text) : Bool := likeItems (patternItems none pattern) text

example : like "Mozilla/5.0 (compatible; Googlebot/2.1)".toList "%googlebot%".toList = true ∧
    like "De La".toList "DE %".toList = true ∧ like "De".toList "DE %".toList = false ∧
    like "ab  ".toList "_[a-c]".toList = true ∧ like "ab".toList "a[^b]".toList = false := by
  decide

end AciX.Sql
