import AciX.Context

/-!
# Types of C#

A type is given as reflection shows it (`Ty`), and as it is written (`TypeExpr`), which can be read
in one way (`TypeExpr.text_inj`) and denotes what the compiler finds for its names
(`TypeExpr.denote`). Of several array suffixes the first one is the outermost.
-/

namespace AciX.CSharp

open List

def isIdentChar (c : Char) : Bool := c.isAlphanum || c = '_' || '\x80' ≤ c

def isWord (w : Text) : Bool :=
  w.head?.any (fun c => isIdentChar c && !c.isDigit) && w.all isIdentChar

abbrev Name := { w : Text // isWord w = true }

def name (s : String) (h : isWord s.toList = true := by decide) : Name := ⟨s.toList, h⟩

inductive Kind where
  | reference
  | struct
  | enum
  deriving DecidableEq

/-- A type definition: its namespace, the types it is nested in with the number of their parameters,
and whether it is in the core library, where `Type.GetType` looks for a name without an assembly. -/
structure TypeDef where
  space : List Text
  outer : List (Text × ℕ)
  name : Name
  kind : Kind
  core : Bool
  deriving DecidableEq

/-- A constructed type; the arguments are those of the types it is nested in, and then its own. An
array has one dimension more than there are commas. -/
inductive Ty where
  | named (d : TypeDef) (args : List Ty)
  | array (commas : ℕ) (elem : Ty)

def systemDef (name : Name) (kind : Kind) : TypeDef := ⟨["System".toList], [], name, kind, true⟩

def nullableDef : TypeDef := systemDef (name "Nullable") .struct

inductive Prim where
  | boolean
  | byte
  | sbyte
  | int16
  | uint16
  | int32
  | uint32
  | int64
  | uint64
  | char
  | single
  | double
  | decimal
  | string
  | object
  | void
  deriving DecidableEq

namespace Prim

def all : List Prim :=
  [boolean, byte, sbyte, int16, uint16, int32, uint32, int64, uint64, char, single, double, decimal,
    string, object, void]

def keyword : Prim → Text
  | boolean => "bool".toList
  | byte => "byte".toList
  | sbyte => "sbyte".toList
  | int16 => "short".toList
  | uint16 => "ushort".toList
  | int32 => "int".toList
  | uint32 => "uint".toList
  | int64 => "long".toList
  | uint64 => "ulong".toList
  | char => "char".toList
  | single => "float".toList
  | double => "double".toList
  | decimal => "decimal".toList
  | string => "string".toList
  | object => "object".toList
  | void => "void".toList

def systemName : Prim → Name
  | boolean => name "Boolean"
  | byte => name "Byte"
  | sbyte => name "SByte"
  | int16 => name "Int16"
  | uint16 => name "UInt16"
  | int32 => name "Int32"
  | uint32 => name "UInt32"
  | int64 => name "Int64"
  | uint64 => name "UInt64"
  | char => name "Char"
  | single => name "Single"
  | double => name "Double"
  | decimal => name "Decimal"
  | string => name "String"
  | object => name "Object"
  | void => name "Void"

def typeDef (p : Prim) : TypeDef :=
  systemDef p.systemName (if p = string ∨ p = object then .reference else .struct)

def type (p : Prim) : Ty := .named p.typeDef []

end Prim

def keywords : List Text :=
  ["abstract", "as", "base", "bool", "break", "byte", "case", "catch", "char", "checked", "class",
    "const", "continue", "decimal", "default", "delegate", "do", "double", "else", "enum", "event",
    "explicit", "extern", "false", "finally", "fixed", "float", "for", "foreach", "goto", "if",
    "implicit", "in", "int", "interface", "internal", "is", "lock", "long", "namespace", "new",
    "null", "object", "operator", "out", "override", "params", "private", "protected", "public",
    "readonly", "ref", "return", "sbyte", "sealed", "short", "sizeof", "stackalloc", "static",
    "string", "struct", "switch", "this", "throw", "true", "try", "typeof", "uint", "ulong",
    "unchecked", "unsafe", "ushort", "using", "virtual", "void", "volatile", "while"].map
      String.toList

inductive Suffix where
  | nullable
  | rank (commas : ℕ)

inductive TypeExpr where
  | mk (word : Text) (args : List TypeExpr) (suffixes : List Suffix)

def Suffix.text : Suffix → Text
  | .nullable => ['?']
  | .rank commas => '[' :: (List.replicate commas ',' ++ [']'])

mutual

def TypeExpr.text : TypeExpr → Text
  | .mk w [] xs => w ++ xs.flatMap Suffix.text
  | .mk w (e :: es) xs => w ++ '<' :: (e.text ++ (TypeExpr.tailText es ++ xs.flatMap Suffix.text))

def TypeExpr.tailText : List TypeExpr → Text
  | [] => ['>']
  | e :: es => ',' :: (e.text ++ TypeExpr.tailText es)

end

mutual

def TypeExpr.Worded : TypeExpr → Prop
  | .mk w args _ => isWord w = true ∧ TypeExpr.AllWorded args

def TypeExpr.AllWorded : List TypeExpr → Prop
  | [] => True
  | e :: es => e.Worded ∧ TypeExpr.AllWorded es

end

def Stops (s : Text) : Prop :=
  ∀ c ∈ s.head?, isIdentChar c = false ∧ c ≠ '<' ∧ c ≠ '?' ∧ c ≠ '['

theorem split_inj {p : Char → Bool} {w w' s s' : Text} (hw : w.all p = true) (hw' : w'.all p = true)
    (hs : ∀ c ∈ s.head?, p c = false) (hs' : ∀ c ∈ s'.head?, p c = false)
    (h : w ++ s = w' ++ s') : w = w' ∧ s = s' := by
  have htake : ∀ {w s : Text}, w.all p = true → (∀ c ∈ s.head?, p c = false) →
      (w ++ s).takeWhile p = w := by
    intro w s hw hs
    rw [takeWhile_append_of_pos (all_eq_true.1 hw)]
    rcases s with _ | ⟨c, s⟩
    · simp
    · simp [hs c rfl]
  have hword : w = w' := by
    rw [← htake hw hs, h, htake hw' hs']
  subst hword
  exact ⟨rfl, append_cancel_left h⟩

theorem word_inj {w w' s s' : Text} (hw : isWord w = true) (hw' : isWord w' = true)
    (hs : ∀ c ∈ s.head?, isIdentChar c = false) (hs' : ∀ c ∈ s'.head?, isIdentChar c = false)
    (h : w ++ s = w' ++ s') : w = w' ∧ s = s' := by
  rw [isWord, Bool.and_eq_true] at hw hw'
  exact split_inj hw.2 hw'.2 hs hs' h

theorem commas_inj {s s' : Text} : ∀ {r r' : ℕ},
    List.replicate r ',' ++ ']' :: s = List.replicate r' ',' ++ ']' :: s' → r = r' ∧ s = s'
  | 0, 0, h => ⟨rfl, (List.cons.inj h).2⟩
  | 0, r' + 1, h => by simp [replicate_succ] at h
  | r + 1, 0, h => by simp [replicate_succ] at h
  | r + 1, r' + 1, h => by
    obtain ⟨rfl, hs⟩ := commas_inj (List.cons.inj h).2
    exact ⟨rfl, hs⟩

theorem suffixes_inj {s s' : Text} (hs : Stops s) (hs' : Stops s') : ∀ {xs xs' : List Suffix},
    xs.flatMap Suffix.text ++ s = xs'.flatMap Suffix.text ++ s' → xs = xs' ∧ s = s'
  | [], [], h => ⟨rfl, h⟩
  | [], .nullable :: xs, h => absurd rfl (hs '?' (by rw [show s = _ from h]; rfl)).2.2.1
  | [], .rank r :: xs, h => absurd rfl (hs '[' (by rw [show s = _ from h]; rfl)).2.2.2
  | .nullable :: xs, [], h => absurd rfl ( hs' '?' (by rw [show s' = _ from h.symm]; rfl)).2.2.1
  | .rank r :: xs, [], h => absurd rfl ( hs' '[' (by rw [show s' = _ from h.symm]; rfl)).2.2.2
  | .nullable :: xs, .nullable :: xs', h => by
    obtain ⟨rfl, hrest⟩ := suffixes_inj hs hs' (List.cons.inj h).2
    exact ⟨rfl, hrest⟩
  | .nullable :: xs, .rank r :: xs', h => absurd (List.cons.inj h).1 (by decide)
  | .rank r :: xs, .nullable :: xs', h => absurd (List.cons.inj h).1 (by decide)
  | .rank r :: xs, .rank r' :: xs', h => by
    simp only [flatMap_cons, Suffix.text, cons_append, append_assoc,
      nil_append, List.cons.injEq, true_and] at h
    obtain ⟨rfl, hxs⟩ := commas_inj h
    obtain ⟨rfl, hrest⟩ := suffixes_inj hs hs' hxs
    exact ⟨rfl, hrest⟩

theorem head_suffixes {s : Text} (hs : Stops s) (xs : List Suffix) :
    ∀ c ∈ (xs.flatMap Suffix.text ++ s).head?, isIdentChar c = false ∧ c ≠ '<' := by
  rcases xs with _ | ⟨_ | r, xs⟩
  · exact fun c hc => ⟨(hs c hc).1, (hs c hc).2.1⟩
  · intro c hc
    obtain rfl : '?' = c := by simpa [Suffix.text] using hc
    decide
  · intro c hc
    obtain rfl : '[' = c := by simpa [Suffix.text] using hc
    decide

theorem stops_tail (es : List TypeExpr) (s : Text) : Stops (TypeExpr.tailText es ++ s) := by
  intro c hc
  rcases es with _ | ⟨e, es⟩
  · obtain rfl : '>' = c := by simpa [TypeExpr.tailText] using hc
    decide
  · obtain rfl : ',' = c := by simpa [TypeExpr.tailText] using hc
    decide

theorem head_open (s : Text) : ∀ c ∈ ('<' :: s).head?, isIdentChar c = false := by
  intro c hc
  obtain rfl : '<' = c := by simpa using hc
  decide

mutual

theorem TypeExpr.text_inj : ∀ {e e' : TypeExpr} {s s' : Text}, e.Worded → e'.Worded → Stops s →
    Stops s' → e.text ++ s = e'.text ++ s' → e = e' ∧ s = s'
  | .mk w [] xs, .mk w' [] xs', s, s', he, he', hs, hs', h => by
    rw [text, text, append_assoc, append_assoc] at h
    obtain ⟨rfl, hxs⟩ := word_inj he.1 he'.1 (fun c hc => (head_suffixes hs xs c hc).1)
      (fun c hc => (head_suffixes hs' xs' c hc).1) h
    obtain ⟨rfl, hrest⟩ := suffixes_inj hs hs' hxs
    exact ⟨rfl, hrest⟩
  | .mk w [] xs, .mk w' (e' :: es') xs', s, s', he, he', hs, hs', h => by
    rw [text, text, append_assoc, append_assoc] at h
    obtain ⟨-, h⟩ := word_inj he.1 he'.1 (fun c hc => (head_suffixes hs xs c hc).1) (head_open _) h
    exact absurd rfl (head_suffixes hs xs '<' (by rw [h]; rfl)).2
  | .mk w (e :: es) xs, .mk w' [] xs', s, s', he, he', hs, hs', h => by
    rw [text, text, append_assoc, append_assoc] at h
    obtain ⟨-, h⟩ := word_inj he.1 he'.1 (head_open _)
      (fun c hc => (head_suffixes hs' xs' c hc).1) h
    exact absurd rfl (head_suffixes hs' xs' '<' (by rw [← h]; rfl)).2
  | .mk w (e :: es) xs, .mk w' (e' :: es') xs', s, s', he, he', hs, hs', h => by
    simp only [text, cons_append, append_assoc] at h
    obtain ⟨rfl, hopen⟩ := word_inj he.1 he'.1 (head_open _) (head_open _) h
    rw [List.cons.injEq] at hopen
    obtain ⟨rfl, hes⟩ := TypeExpr.text_inj he.2.1 he'.2.1 (stops_tail _ _) (stops_tail _ _) hopen.2
    obtain ⟨rfl, hxs⟩ := TypeExpr.tailText_inj he.2.2 he'.2.2 hes
    obtain ⟨rfl, hrest⟩ := suffixes_inj hs hs' hxs
    exact ⟨rfl, hrest⟩

theorem TypeExpr.tailText_inj : ∀ {es es' : List TypeExpr} {s s' : Text}, AllWorded es →
    AllWorded es' → tailText es ++ s = tailText es' ++ s' → es = es' ∧ s = s'
  | [], [], s, s', _, _, h => ⟨rfl, (List.cons.inj h).2⟩
  | [], e' :: es', s, s', _, _, h => absurd (List.cons.inj h).1 (by decide)
  | e :: es, [], s, s', _, _, h => absurd (List.cons.inj h).1 (by decide)
  | e :: es, e' :: es', s, s', hes, hes', h => by
    simp only [tailText, cons_append, append_assoc, List.cons.injEq, true_and] at h
    obtain ⟨rfl, htail⟩ := TypeExpr.text_inj hes.1 hes'.1 (stops_tail _ _) (stops_tail _ _) h
    obtain ⟨rfl, hrest⟩ := TypeExpr.tailText_inj hes.2 hes'.2 htail
    exact ⟨rfl, hrest⟩

end

section Meaning

def Ty.nullable (t : Ty) : Ty := .named nullableDef [t]

def Ty.isValueType : Ty → Bool
  | .named d _ => d.kind ≠ .reference && d ≠ nullableDef
  | .array _ _ => false

variable (lookup : Text → ℕ → Option TypeDef)

local instance : LawfulBEq Text := inferInstance

def typeOf (w : Text) (args : List Ty) : Option Ty :=
  match Prim.all.find? (·.keyword = w) with
  | some p => if args.isEmpty then some p.type else none
  | none => if w ∈ keywords then none else (lookup w args.length).map (.named · args)

def ranks : List Suffix → Option (List ℕ)
  | [] => some []
  | .rank r :: xs => (ranks xs).map (r :: ·)
  | .nullable :: _ => none

def withRanks (t : Ty) (xs : List Suffix) : Option Ty :=
  (ranks xs).map fun rs => rs.foldr .array t

def withSuffixes (t : Ty) : List Suffix → Option Ty
  | .nullable :: xs => if t.isValueType then withRanks t.nullable xs else none
  | xs => withRanks t xs

mutual

def TypeExpr.denote : TypeExpr → Option Ty
  | .mk w args xs => do
    let ts ← TypeExpr.denoteAll args
    let t ← typeOf lookup w ts
    withSuffixes t xs

def TypeExpr.denoteAll : List TypeExpr → Option (List Ty)
  | [] => some []
  | e :: es => do
    let t ← e.denote
    let ts ← TypeExpr.denoteAll es
    return t :: ts

end

end Meaning

section Names

/-- The types that a file is compiled with, each with the number of its parameters, the namespace
that its classes are in, and the namespaces that it imports. -/
structure Compilation where
  types : List (TypeDef × ℕ)
  space : List Text
  usings : List (List Text)

namespace Compilation

variable (c : Compilation) (w : Text) (arity : ℕ)

def declared (space : List Text) : Option TypeDef :=
  (c.types.find? fun d =>
    d.1.space = space ∧ d.1.outer = [] ∧ d.1.name.1 = w ∧ d.2 = arity).map (·.1)

def isNamespace (space : List Text) : Bool := c.types.any fun d => space.isPrefixOf d.1.space

/-- What a simple name stands for: the namespaces around the class come first, from the inside out,
and a namespace hides types of its name. Then exactly one of the imported namespaces must have the
type. -/
def resolve : Option TypeDef :=
  let isNamespaceIn (space : List Text) : Bool := arity = 0 && c.isNamespace (space ++ [w])
  match c.space.inits.reverse.find? fun space =>
    isNamespaceIn space || (c.declared w arity space).isSome with
  | some space => if isNamespaceIn space then none else c.declared w arity space
  | none =>
    match c.usings.dedup.filterMap (c.declared w arity) with
    | [d] => some d
    | _ => none

end Compilation

end Names

end AciX.CSharp
