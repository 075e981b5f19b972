import AciX.CSharp.Constant

/-!
# The generator of the data access layer

`EmitMethod` writes a method for each `Execute` method of a class for a stored procedure. The names
of types are taken from `Type.Name`, where a rank is not written, and a type that is passed by
reference is looked up again by its full name. A default value is written by `ToString`.
-/

namespace AciX.DalGen

open CSharp

def ownArity (d : TypeDef) (args : List Ty) : ℕ := args.length - (d.outer.map (·.2)).sum

def typeName : Ty → Text
  | .named d args =>
    d.name.1 ++ if ownArity d args = 0 then [] else '\x60' :: Nat.toDigits 10 (ownArity d args)
  | .array commas elem => typeName elem ++ (Suffix.rank commas).text

def namespaceOf : Ty → List Text
  | .named d _ => d.space
  | .array _ elem => namespaceOf elem

def isFound : Ty → Bool
  | .named d _ => d.core
  | .array _ elem => isFound elem

inductive FloatText where
  | nan
  | infinity (neg : Bool)
  | number (neg : Bool) (n : Number) (valid : n.Valid)

/-- `ToString` of floating-point numbers, and the names it writes for the value of an enumeration,
none if that is written as a number. -/
structure Runtime where
  singleText : BitVec 32 → FloatText
  doubleText : BitVec 64 → FloatText
  enumNames : TypeDef → ℤ → List Name

def Permitted (t : Ty) : Const → Prop
  | .null => True
  | .bool _ => t.scalar.prim? = some .boolean
  | .char _ => t.scalar.prim? = some .char
  | .int n => ∃ p r, t.scalar.prim? = some p ∧ p.range = some r ∧ r.1 ≤ n ∧ n ≤ r.2
  | .single _ => t.scalar.prim? = some .single
  | .double _ => t.scalar.prim? = some .double
  | .decimal _ _ => t.scalar.prim? = some .decimal
  | .string _ => t.prim? = some .string
  | .enum _ => t.scalar.isEnum = true

inductive Modifier where
  | value
  | ref
  | out
  | params
  deriving DecidableEq

/-- `ParameterInfo`; the type is without the `&` of a reference. The attribute `[Out]` can stand on
parameters that are not `out`. -/
structure ParameterInfo where
  name : Name
  type : Ty
  modifier : Modifier
  outAttribute : Bool := false
  default : Option Const := none
  permitted : ∀ v ∈ default, modifier = .value ∧ Permitted type v

def ParameterInfo.isOut (p : ParameterInfo) : Bool := p.modifier = .out || p.outAttribute

def ParameterInfo.isByRef (p : ParameterInfo) : Bool := p.modifier = .ref || p.modifier = .out

structure MethodInfo where
  name : Name
  returnType : Ty
  params : List ParameterInfo

structure StoredProc where
  name : Name
  withTran : Bool
  withTimeout : Bool
  methods : List MethodInfo

def FloatText.text : FloatText → Text
  | .nan => "NaN".toList
  | .infinity neg => signText neg ++ "Infinity".toList
  | .number neg n _ => signText neg ++ n.text

def decimalNumber (coefficient : ℤ) (scale : ℕ) : Number :=
  let fraction := Nat.toDigits 10 (coefficient.natAbs % 10 ^ scale)
  { whole := Nat.toDigits 10 (coefficient.natAbs / 10 ^ scale)
    fraction := if scale = 0 then [] else List.replicate (scale - fraction.length) '0' ++ fraction }

def namesText (first : Name) (rest : List Name) : Text :=
  first.1 ++ rest.flatMap fun w => ", ".toList ++ w.1

/-- `Enum.ToString`. Of a parameter that may be null reflection knows the number only. -/
def enumText (rt : Runtime) (n : ℤ) : Ty → Text
  | .named d _ =>
    if d = nullableDef then intText n
    else
      match rt.enumNames d n with
      | [] => intText n
      | first :: rest => namesText first rest
  | .array _ _ => intText n

def toText (rt : Runtime) (t : Ty) : Const → Text
  | .null => []
  | .bool b => if b then "True".toList else "False".toList
  | .char c => [c]
  | .int n => intText n
  | .single x => (rt.singleText x).text
  | .double x => (rt.doubleText x).text
  | .decimal c k => signText (c < 0) ++ (decimalNumber c k).text
  | .string s => s
  | .enum n => enumText rt n t

def getDefaultValue (rt : Runtime) (t : Ty) (v : Const) : Text :=
  if v = .null then "null".toList
  else if typeName t = "String".toList then '\x22' :: (toText rt t v ++ ['\x22'])
  else if typeName t = "Boolean".toList then toLower (toText rt t v)
  else toText rt t v

def switched : List Prim :=
  [.decimal, .byte, .int16, .int32, .int64, .uint16, .uint32, .uint64, .boolean, .string, .void]

def replaced (w : Text) : Option Prim := switched.find? fun p => p.systemName.1 = w

def switchName (w : Text) : Text := (replaced w).elim w Prim.keyword

def isNullable (d : TypeDef) (args : List Ty) : Bool :=
  typeName (.named d args) = "Nullable\x601".toList

mutual

/-- `GetTypeName`; `none` where `Substring` throws because there is no backtick in the name. -/
def getTypeName : Ty → Option Text
  | .array _ elem => (getTypeName elem).map (· ++ "[]".toList)
  | .named d [] => some (switchName d.name.1)
  | .named d (t :: ts) =>
    if isNullable d (t :: ts) then (getTypeName t).map (· ++ ['?'])
    else if ownArity d (t :: ts) = 0 then none
    else do
      let first ← getTypeName t
      let rest ← getTypeNames ts
      return d.name.1 ++ '<' :: (first ++ (rest ++ ['>']))

def getTypeNames : List Ty → Option Text
  | [] => some []
  | t :: ts => do
    let first ← getTypeName t
    let rest ← getTypeNames ts
    return ',' :: (first ++ rest)

end

section Methods

structure ParamText where
  modifier : Text
  type : Text
  name : Text
  default : Option Text

def ParamText.text (s : ParamText) : Text :=
  s.modifier ++ s.type ++ [' '] ++ s.name ++ s.default.elim [] ('=' :: ·)

structure ArgumentText where
  parameter : Text
  modifier : Text
  passed : Text

def ArgumentText.text (s : ArgumentText) : Text :=
  s.parameter ++ ": ".toList ++ s.modifier ++ s.passed

structure MethodText where
  summary : Text
  returnType : Text
  name : Text
  params : List ParamText
  result : Text
  target : Text
  targetArgs : Text
  arguments : List ArgumentText

def joinItems (before : Text) : List Text → Text
  | [] => []
  | [item] => before ++ item
  | item :: items => before ++ item ++ ',' :: joinItems before items

def MethodText.text (s : MethodText) : Text :=
  "    /// <summary>\r\n    /// ".toList ++ s.summary ++ "\r\n    /// </summary>\r\n".toList ++
  "    public ".toList ++ s.returnType ++ [' '] ++ s.name ++ ['('] ++
  joinItems (if 1 < s.params.length then "\r\n      ".toList else []) (s.params.map (·.text)) ++
  ")\r\n    \x7b\r\n      ".toList ++ s.result ++ "new ".toList ++ s.target ++ ['('] ++
  s.targetArgs ++ ")\r\n        .Execute(".toList ++
  joinItems (if s.arguments.length = 1 then [] else "\r\n          ".toList)
    (s.arguments.map (·.text)) ++ ");\r\n    \x7d\r\n\r\n".toList

def paramPrefix (p : ParameterInfo) : Text :=
  if p.isOut then "out ".toList else if p.isByRef then "ref ".toList else []

variable (rt : Runtime)

def emitParam (p : ParameterInfo) : Option ParamText := do
  let type ← if p.isByRef && !isFound p.type then none else getTypeName p.type
  return ⟨paramPrefix p, type, p.name.1, p.default.map (getDefaultValue rt p.type)⟩

def emitArgument (p : ParameterInfo) : ArgumentText := ⟨p.name.1, paramPrefix p, p.name.1⟩

def addNamespace (dict : List (List Text)) (t : Ty) : Option (List (List Text)) :=
  if namespaceOf t = [] then none
  else some (if namespaceOf t ∈ dict then dict else dict ++ [namespaceOf t])

def MethodInfo.types (m : MethodInfo) : List Ty := m.returnType :: m.params.map (·.type)

def constructorArgs (proc : StoredProc) : Text :=
  "_conn".toList ++ (if proc.withTran || proc.withTimeout then ",Transaction".toList else []) ++
    if proc.withTimeout then ",CommandTimeoutSecs".toList else []

def emitExecute (db : Name) (proc : StoredProc) (dict : List (List Text)) (m : MethodInfo) :
    Option (List (List Text) × MethodText) := do
  let dict ← m.types.foldlM addNamespace dict
  let returnType ← getTypeName m.returnType
  let params ← m.params.mapM (emitParam rt)
  return (dict,
    { summary := db.1 ++ '.' :: proc.name.1, returnType := returnType, name := proc.name.1
      params := params
      result := if m.returnType.prim? = some .void then [] else "return ".toList
      target := proc.name.1, targetArgs := constructorArgs proc
      arguments := m.params.map emitArgument })

def emitMethod (db : Name) (dict : List (List Text)) (proc : StoredProc) :
    Option (List (List Text) × Text) :=
  (proc.methods.filter fun m => m.name.1 = "Execute".toList).foldlM
    (fun r m => (emitExecute rt db proc r.1 m).map fun p => (p.1, r.2 ++ p.2.text)) (dict, [])

end Methods

end AciX.DalGen
