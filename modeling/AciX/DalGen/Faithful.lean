import AciX.DalGen.Emit

/-!
# Faithful signatures

The texts of `EmitMethod` should declare the method that reflection shows. The name of a type does
so if its arrays have one dimension, and if its names are keywords or found in the generated file
(`denotesType_iff`). Of the default values, characters and most enumerations are never written as
constants, and strings only if nothing in them needs an escape (`denotes_default_iff`).
-/

namespace AciX.DalGen

open List

open CSharp

section Statement

variable (lookup : Text → ℕ → Option TypeDef) (floats : Floats)

def DenotesType (s : Text) (t : Ty) : Prop :=
  ∃ e : TypeExpr, e.Worded ∧ e.text = s ∧ e.denote lookup = some t

def IsName (s : Text) (x : Name) : Prop := s = x.1 ∧ s ∉ keywords

def Modifier.text : Modifier → Text
  | .value => []
  | .ref => "ref ".toList
  | .out => "out ".toList
  | .params => "params ".toList

structure ParamText.Declares (s : ParamText) (p : ParameterInfo) : Prop where
  modifier : s.modifier = p.modifier.text
  type : DenotesType lookup s.type p.type
  name : IsName s.name p.name
  default : Option.Rel (Denotes floats p.type) s.default p.default

structure ArgumentText.Forwards (s : ArgumentText) (p : ParameterInfo) : Prop where
  parameter : IsName s.parameter p.name
  modifier : s.modifier = p.modifier.text
  passed : IsName s.passed p.name

structure MethodText.Declares (s : MethodText) (proc : StoredProc) (m : MethodInfo) : Prop where
  returnType : DenotesType lookup s.returnType m.returnType
  name : IsName s.name proc.name
  params : List.Forall₂ (ParamText.Declares lookup floats) s.params m.params
  arguments : List.Forall₂ ArgumentText.Forwards s.arguments m.params

/-- The method is emitted, and its texts declare it in the file that is generated; `dict` has the
namespaces that are imported for other methods. -/
def Faithful (rt : Runtime) (c : Compilation) (db : Name) (proc : StoredProc)
    (dict : List (List Text)) (m : MethodInfo) : Prop :=
  ∃ dict' s, emitExecute rt db proc dict m = some (dict', s) ∧
    s.Declares (Compilation.resolve { c with usings := dict' }) floats proc m

mutual

/-- Arrays have one dimension, a name that is replaced by a keyword is that of the system's type,
and the other names are found. -/
def GoodType : Ty → Prop
  | .array commas elem => commas = 0 ∧ GoodType elem
  | .named d [] =>
    match replaced d.name.1 with
    | some p => d = p.typeDef
    | none => d.name.1 ∉ keywords ∧ lookup d.name.1 0 = some d
  | .named d (t :: ts) =>
    if isNullable d (t :: ts) then d = nullableDef ∧ ts = [] ∧ t.isValueType = true ∧ GoodType t
    else d.name.1 ∉ keywords ∧ lookup d.name.1 (ts.length + 1) = some d ∧
      0 < ownArity d (t :: ts) ∧ GoodType t ∧ GoodTypes ts

def GoodTypes : List Ty → Prop
  | [] => True
  | t :: ts => GoodType t ∧ GoodTypes ts

end

def GoodDefault (rt : Runtime) (t : Ty) : Const → Prop
  | .null => t.isValueType = false
  | .bool _ => t.prim? = some .boolean
  | .char _ => False
  | .int _ => True
  | .single x => ∃ neg n h, rt.singleText x = .number neg n h ∧ n.isInteger = true ∧
      isLiteralInt (n.int neg) = true ∧ floats.ofInt (n.int neg) = x
  | .double x => ∃ neg n h, rt.doubleText x = .number neg n h ∧
      (n.isInteger = true → isLiteralInt (n.int neg) = true) ∧ floats.ofNumber neg n = x
  | .decimal c k => k = 0 ∧ isLiteralInt c = true
  | .string s => Plain '\x22' s
  | .enum n => n = 0 ∧ ∀ d args, t = .named d args → d = nullableDef ∨ rt.enumNames d 0 = []

structure GoodParam (rt : Runtime) (p : ParameterInfo) : Prop where
  type : GoodType lookup p.type
  found : p.isByRef = true → isFound p.type = true
  modifier : p.modifier ≠ .params ∧ (p.outAttribute = true → p.modifier = .out)
  name : p.name.1 ∉ keywords
  default : ∀ v ∈ p.default, GoodDefault floats rt p.type v

local instance : LawfulBEq (List Text) := inferInstance

def imports (dict : List (List Text)) (m : MethodInfo) : List (List Text) :=
  m.types.foldl (fun dict t => if namespaceOf t ∈ dict then dict else dict ++ [namespaceOf t]) dict

structure Good (rt : Runtime) (c : Compilation) (proc : StoredProc) (dict : List (List Text))
    (m : MethodInfo) : Prop where
  spaces : ∀ t ∈ m.types, namespaceOf t ≠ []
  returnType : GoodType (Compilation.resolve { c with usings := imports dict m }) m.returnType
  name : proc.name.1 ∉ keywords
  params : ∀ p ∈ m.params,
    GoodParam (Compilation.resolve { c with usings := imports dict m }) floats rt p

end Statement

section Types

variable {lookup : Text → ℕ → Option TypeDef} {e : TypeExpr}

def push : TypeExpr → Suffix → TypeExpr
  | .mk w args xs, x => .mk w args (xs ++ [x])

theorem text_push (e : TypeExpr) (x : Suffix) : (push e x).text = e.text ++ x.text := by
  rcases e with ⟨w, _ | ⟨e, es⟩, xs⟩ <;> simp [push, TypeExpr.text]

mutual

def exprOf : Ty → Option TypeExpr
  | .array _ elem => (exprOf elem).map (push · (.rank 0))
  | .named d [] => some (.mk (switchName d.name.1) [] [])
  | .named d (t :: ts) =>
    if isNullable d (t :: ts) then (exprOf t).map (push · .nullable)
    else if ownArity d (t :: ts) = 0 then none
    else do
      let e ← exprOf t
      let es ← exprsOf ts
      return .mk d.name.1 (e :: es) []

def exprsOf : List Ty → Option (List TypeExpr)
  | [] => some []
  | t :: ts => do
    let e ← exprOf t
    let es ← exprsOf ts
    return e :: es

end

mutual

theorem getTypeName_eq : ∀ t : Ty, getTypeName t = (exprOf t).map TypeExpr.text
  | .array _ elem => by
    rw [getTypeName, exprOf, getTypeName_eq elem, Option.map_map, Option.map_map]
    congr 1
    funext e
    exact (text_push e (.rank 0)).symm
  | .named d [] => by simp [getTypeName, exprOf, TypeExpr.text]
  | .named d (t :: ts) => by
    have hts := getTypeNames_eq ts
    rw [getTypeName, exprOf, getTypeName_eq t]
    split_ifs
    · rw [Option.map_map, Option.map_map]
      congr 1
      funext e
      exact (text_push e .nullable).symm
    · rfl
    · cases exprOf t <;> cases hexprs : exprsOf ts <;> cases hnames : getTypeNames ts <;>
        simp_all [TypeExpr.text]

theorem getTypeNames_eq : ∀ ts : List Ty,
    (getTypeNames ts).map (· ++ ['>']) = (exprsOf ts).map TypeExpr.tailText
  | [] => rfl
  | t :: ts => by
    have hts := getTypeNames_eq ts
    rw [getTypeNames, exprsOf, getTypeName_eq t]
    cases exprOf t <;> cases hexprs : exprsOf ts <;> cases hnames : getTypeNames ts <;>
      simp_all [TypeExpr.tailText]

end

theorem isWord_switchName (x : Name) : isWord (switchName x.1) = true := by
  have hkeywords : ∀ p ∈ switched, isWord p.keyword = true := by decide
  rw [switchName]
  rcases hp : replaced x.1 with _ | p
  · exact x.2
  · exact hkeywords p (mem_of_find?_eq_some hp)

theorem worded_push {x : Suffix} (h : e.Worded) : (push e x).Worded := by
  cases e
  exact h

mutual

theorem worded_exprOf : ∀ {t : Ty} {e : TypeExpr}, exprOf t = some e → e.Worded
  | .array _ elem, e, h => by
    rw [exprOf, Option.map_eq_some_iff] at h
    obtain ⟨e', he', rfl⟩ := h
    exact worded_push (worded_exprOf he')
  | .named d [], e, h => by
    cases h
    exact ⟨isWord_switchName d.name, trivial⟩
  | .named d (t :: ts), e, h => by
    rw [exprOf] at h
    split_ifs at h
    · obtain ⟨e', he', rfl⟩ := Option.map_eq_some_iff.1 h
      exact worded_push (worded_exprOf he')
    · simp only [Option.bind_eq_bind, Option.bind_eq_some_iff, Option.pure_def,
        Option.some.injEq] at h
      obtain ⟨e', he', es, hes, rfl⟩ := h
      exact ⟨d.name.2, worded_exprOf he', worded_exprsOf hes⟩

theorem worded_exprsOf : ∀ {ts : List Ty} {es : List TypeExpr}, exprsOf ts = some es →
    TypeExpr.AllWorded es
  | [], es, h => by
    cases h
    trivial
  | t :: ts, es, h => by
    simp only [exprsOf, Option.bind_eq_bind, Option.bind_eq_some_iff, Option.pure_def,
      Option.some.injEq] at h
    obtain ⟨e', he', es', hes', rfl⟩ := h
    exact ⟨worded_exprOf he', worded_exprsOf hes'⟩

end

theorem ranks_append (r : ℕ) : ∀ xs : List Suffix,
    ranks (xs ++ [.rank r]) = (ranks xs).map (· ++ [r])
  | [] => rfl
  | .rank r' :: xs => by
    rw [cons_append, ranks, ranks_append r xs, ranks, Option.map_map, Option.map_map]
    rfl
  | .nullable :: xs => rfl

theorem ranks_nullable : ∀ xs : List Suffix, ranks (xs ++ [.nullable]) = none
  | [] => rfl
  | .rank r :: xs => by rw [cons_append, ranks, ranks_nullable xs]; rfl
  | .nullable :: xs => rfl

def Flat (xs : List Suffix) : Prop := ∀ r, .rank r ∈ xs → r = 0

theorem foldr_array {t : Ty} : ∀ {rs : List ℕ}, (∀ r ∈ rs, r = 0) →
    rs.foldr Ty.array (.array 0 t) = Ty.array 0 (rs.foldr Ty.array t)
  | [], _ => rfl
  | r :: rs, h => by
    rw [foldr_cons, foldr_cons, foldr_array fun r hr => h r (.tail _ hr), h r mem_cons_self]

theorem mem_ranks {r : ℕ} : ∀ {xs : List Suffix} {rs : List ℕ}, ranks xs = some rs → r ∈ rs →
    .rank r ∈ xs
  | [], rs, h, hr => by
    cases h
    cases hr
  | .rank r' :: xs, rs, h, hr => by
    obtain ⟨rs', hrs', rfl⟩ := Option.map_eq_some_iff.1 h
    rcases mem_cons.1 hr with rfl | hr
    · exact mem_cons_self
    · exact .tail _ (mem_ranks hrs' hr)

theorem withRanks_append {t : Ty} {xs : List Suffix} (h : Flat xs) :
    withRanks t (xs ++ [.rank 0]) = (withRanks t xs).map (.array 0) := by
  rw [withRanks, ranks_append, withRanks]
  rcases hrs : ranks xs with _ | rs
  · rfl
  · simp only [Option.map_some, Option.some.injEq, foldr_append]
    exact foldr_array fun r hr => h r (mem_ranks hrs hr)

theorem withSuffixes_append {t : Ty} {xs : List Suffix} (h : Flat xs) :
    withSuffixes t (xs ++ [.rank 0]) = (withSuffixes t xs).map (.array 0) := by
  rcases xs with _ | ⟨_ | r, xs⟩
  · rfl
  · rw [cons_append, withSuffixes, withSuffixes]
    split_ifs
    · exact withRanks_append fun r hr => h r (.tail _ hr)
    · rfl
  · exact withRanks_append h

def suffixes : TypeExpr → List Suffix
  | .mk _ _ xs => xs

theorem denote_push_rank (h : Flat (suffixes e)) :
    (push e (.rank 0)).denote lookup = (e.denote lookup).map (.array 0) := by
  obtain ⟨w, args, xs⟩ := e
  rw [push, TypeExpr.denote, TypeExpr.denote]
  rcases TypeExpr.denoteAll lookup args with _ | ts
  · rfl
  · rcases htype : typeOf lookup w ts with _ | t
    · simp [htype]
    · simp only [Option.bind_eq_bind, Option.bind_some, htype]
      exact withSuffixes_append h

theorem denote_push_nullable {u : Ty} : (push e .nullable).denote lookup = some u ↔
      suffixes e = [] ∧ ∃ t, e.denote lookup = some t ∧ t.isValueType = true ∧ u = t.nullable := by
  obtain ⟨w, args, xs⟩ := e
  rw [push, TypeExpr.denote, TypeExpr.denote, suffixes]
  rcases TypeExpr.denoteAll lookup args with _ | ts
  · simp
  rcases htype : typeOf lookup w ts with _ | t
  · simp [htype]
  rcases xs with _ | ⟨_ | r, xs⟩
  · have hnull : withSuffixes t ([] ++ [.nullable]) =
        if t.isValueType then some t.nullable else none := rfl
    have hplain : withSuffixes t [] = some t := rfl
    simp only [Option.bind_eq_bind, Option.bind_some, htype, hnull, hplain, Option.some.injEq]
    split_ifs with hvalue
    · simp [hvalue, eq_comm]
    · simp [hvalue]
  · simp [htype, withSuffixes, withRanks, ranks_nullable]
  · simp [htype, withSuffixes, withRanks, ranks, ranks_nullable]

theorem flat_push {x : Suffix} (h : Flat (suffixes e)) (hx : Flat [x]) :
    Flat (suffixes (push e x)) := by
  obtain ⟨w, args, xs⟩ := e
  intro r hr
  rcases mem_append.1 hr with hr | hr
  · exact h r hr
  · exact hx r hr

theorem flat_exprOf : ∀ {t : Ty} {e : TypeExpr}, exprOf t = some e → Flat (suffixes e)
  | .array _ elem, e, h => by
    rw [exprOf, Option.map_eq_some_iff] at h
    obtain ⟨e', he', rfl⟩ := h
    exact flat_push (flat_exprOf he') (by simp [Flat])
  | .named d [], e, h => by
    cases h
    simp [Flat, suffixes]
  | .named d (t :: ts), e, h => by
    rw [exprOf] at h
    split_ifs at h
    · obtain ⟨e', he', rfl⟩ := Option.map_eq_some_iff.1 h
      exact flat_push (flat_exprOf he') (by simp [Flat])
    · simp only [Option.bind_eq_bind, Option.bind_eq_some_iff, Option.pure_def,
        Option.some.injEq] at h
      obtain ⟨e', -, es, -, rfl⟩ := h
      simp [Flat, suffixes]

theorem suffixes_exprOf : ∀ {t : Ty} {e : TypeExpr}, GoodType lookup t → t.isValueType = true →
    exprOf t = some e → suffixes e = []
  | .array _ elem, e, _, hvalue, _ => by cases hvalue
  | .named d [], e, _, _, h => by
    cases h
    rfl
  | .named d (t :: ts), e, hgood, hvalue, h => by
    rw [GoodType] at hgood
    rw [exprOf] at h
    split_ifs at h with hnull
    · rw [if_pos hnull] at hgood
      simp [Ty.isValueType, hgood.1] at hvalue
    · simp only [Option.bind_eq_bind, Option.bind_eq_some_iff, Option.pure_def,
        Option.some.injEq] at h
      obtain ⟨e', -, es, -, rfl⟩ := h
      rfl

theorem denote_mk (w : Text) (es : List TypeExpr) : (TypeExpr.mk w es []).denote lookup =
    (TypeExpr.denoteAll lookup es).bind (typeOf lookup w) := by
  rw [TypeExpr.denote]
  rcases TypeExpr.denoteAll lookup es with _ | ts
  · rfl
  · rcases htype : typeOf lookup w ts with _ | t <;> simp [htype]
    rfl

theorem denoteAll_cons {es : List TypeExpr} {us : List Ty} :
    TypeExpr.denoteAll lookup (e :: es) = some us ↔ ∃ u, e.denote lookup = some u ∧
      ∃ us', TypeExpr.denoteAll lookup es = some us' ∧ us = u :: us' := by
  simp only [TypeExpr.denoteAll, Option.bind_eq_bind, Option.bind_eq_some_iff, Option.pure_def,
    Option.some.injEq, eq_comm (a := us)]

theorem find_keyword (p : Prim) : Prim.all.find? (·.keyword = p.keyword) = some p := by
  cases p <;> decide

theorem keyword_mem : ∀ p : Prim, p.keyword ∈ keywords ∧ p.keyword ≠ p.systemName.1 := by
  intro p
  cases p <;> decide

theorem typeOf_cons {w : Text} {a : Ty} {as : List Ty} {u : Ty} :
    typeOf lookup w (a :: as) = some u ↔
      w ∉ keywords ∧ ∃ d, lookup w (as.length + 1) = some d ∧ u = .named d (a :: as) := by
  unfold typeOf
  split
  · rename_i p hp
    have hw : p.keyword = w := by simpa using find?_some hp
    simp [← hw, (keyword_mem p).1]
  · split_ifs with hw
    · simp [hw]
    · simp [hw, eq_comm]

theorem typeOf_name {d : TypeDef} :
    typeOf lookup d.name.1 [] = some (.named d []) ↔
      d.name.1 ∉ keywords ∧ lookup d.name.1 0 = some d := by
  unfold typeOf
  split
  · rename_i p hp
    have hw : p.keyword = d.name.1 := by simpa using find?_some hp
    refine iff_of_false (fun h => ?_) fun h => h.1 (hw ▸ (keyword_mem p).1)
    have hd : p.typeDef = d := by simpa [Prim.type] using h
    exact (keyword_mem p).2 (hw.trans (congrArg (fun d => d.name.1) hd).symm)
  · split_ifs with hw
    · simp [hw]
    · simp [hw]

mutual

theorem denote_exprOf : ∀ t : Ty,
    (∃ e, exprOf t = some e ∧ e.denote lookup = some t) ↔ GoodType lookup t
  | .array commas elem => by
    rw [GoodType, ← denote_exprOf elem, exprOf]
    constructor
    · rintro ⟨e, he, hdenote⟩
      obtain ⟨e', he', rfl⟩ := Option.map_eq_some_iff.1 he
      rw [denote_push_rank (flat_exprOf he'), Option.map_eq_some_iff] at hdenote
      obtain ⟨u, hu, heq⟩ := hdenote
      cases heq
      exact ⟨rfl, e', he', hu⟩
    · rintro ⟨rfl, e', he', hu⟩
      refine ⟨push e' (.rank 0), by rw [he']; rfl, ?_⟩
      rw [denote_push_rank (flat_exprOf he'), hu]
      rfl
  | .named d [] => by
    simp only [exprOf, Option.some.injEq, exists_eq_left', denote_mk, TypeExpr.denoteAll,
      Option.bind_some]
    rw [GoodType, switchName]
    rcases replaced d.name.1 with _ | p
    · exact typeOf_name
    · have hp : typeOf lookup p.keyword [] = some p.type := by
        unfold typeOf
        rw [find_keyword]
        rfl
      simp [hp, Prim.type, eq_comm]
  | .named d (t :: ts) => by
    rw [GoodType, ← denote_exprOf t, ← denote_exprsOf ts, exprOf]
    split_ifs with hnull harity
    · constructor
      · rintro ⟨e, he, hdenote⟩
        obtain ⟨e', he', rfl⟩ := Option.map_eq_some_iff.1 he
        obtain ⟨-, u, hu, hvalue, heq⟩ := denote_push_nullable.1 hdenote
        cases heq
        exact ⟨rfl, rfl, hvalue, e', he', hu⟩
      · rintro ⟨rfl, rfl, hvalue, e', he', hu⟩
        have hnil := suffixes_exprOf ((denote_exprOf t).1 ⟨e', he', hu⟩) hvalue he'
        exact ⟨_, by rw [he']; rfl, denote_push_nullable.2 ⟨hnil, t, hu, hvalue, rfl⟩⟩
    · refine iff_of_false (fun ⟨e, he, _⟩ => by cases he) fun h => ?_
      have := h.2.2.1
      omega
    · have hpos : 0 < ownArity d (t :: ts) := Nat.pos_of_ne_zero harity
      constructor
      · rintro ⟨e, he, hdenote⟩
        simp only [Option.bind_eq_bind, Option.bind_eq_some_iff, Option.pure_def,
          Option.some.injEq] at he
        obtain ⟨e', he', es, hes, rfl⟩ := he
        rw [denote_mk, Option.bind_eq_some_iff] at hdenote
        obtain ⟨us, hus, htype⟩ := hdenote
        obtain ⟨u, hu, us', hus', rfl⟩ := denoteAll_cons.1 hus
        obtain ⟨hkeyword, d', hlookup, heq⟩ := typeOf_cons.1 htype
        cases heq
        exact ⟨hkeyword, hlookup, hpos, ⟨e', he', hu⟩, es, hes, hus'⟩
      · rintro ⟨hkeyword, hlookup, -, ⟨e', he', hu⟩, es, hes, hus⟩
        refine ⟨.mk d.name.1 (e' :: es) [], by rw [he', hes]; rfl, ?_⟩
        rw [denote_mk, denoteAll_cons.2 ⟨t, hu, ts, hus, rfl⟩]
        exact typeOf_cons.2 ⟨hkeyword, d, hlookup, rfl⟩

theorem denote_exprsOf : ∀ ts : List Ty,
    (∃ es, exprsOf ts = some es ∧ TypeExpr.denoteAll lookup es = some ts) ↔ GoodTypes lookup ts
  | [] => by simp [exprsOf, GoodTypes, TypeExpr.denoteAll]
  | t :: ts => by
    rw [GoodTypes, ← denote_exprOf t, ← denote_exprsOf ts, exprsOf]
    constructor
    · rintro ⟨es, hes, hdenote⟩
      simp only [Option.bind_eq_bind, Option.bind_eq_some_iff, Option.pure_def,
        Option.some.injEq] at hes
      obtain ⟨e', he', es', hes', rfl⟩ := hes
      obtain ⟨u, hu, us, hus, heq⟩ := denoteAll_cons.1 hdenote
      cases heq
      exact ⟨⟨e', he', hu⟩, es', hes', hus⟩
    · rintro ⟨⟨e', he', hu⟩, es', hes', hus⟩
      exact ⟨e' :: es', by rw [he', hes']; rfl, denoteAll_cons.2 ⟨t, hu, ts, hus, rfl⟩⟩

end

theorem denotesType_iff {t : Ty} :
    (∃ s, getTypeName t = some s ∧ DenotesType lookup s t) ↔ GoodType lookup t := by
  rw [← denote_exprOf, getTypeName_eq]
  constructor
  · rintro ⟨s, hs, e, hword, htext, hdenote⟩
    obtain ⟨e', he', rfl⟩ := Option.map_eq_some_iff.1 hs
    have hnil : Stops [] := fun c hc => by cases hc
    obtain ⟨rfl, -⟩ :=
      TypeExpr.text_inj hword (worded_exprOf he') hnil hnil (congrArg (· ++ []) htext)
    exact ⟨e, he', hdenote⟩
  · rintro ⟨e, he, hdenote⟩
    exact ⟨e.text, by rw [he]; rfl, e, worded_exprOf he, rfl, hdenote⟩

end Types

section Defaults

variable {lookup : Text → ℕ → Option TypeDef} {floats : Floats} {rt : Runtime} {t : Ty} {p : Prim}
  {n : ℤ}

theorem prim_eq (h : t.prim? = some p) : t = p.type := by
  rcases t with ⟨d, _ | ⟨a, as⟩⟩ | _
  · have hd : p.typeDef = d := by simpa using find?_some h
    rw [← hd]
    rfl
  · cases h
  · cases h

theorem prim_type (p : Prim) : p.type.prim? = some p := by cases p <;> decide

theorem scalar_eq (h : t.scalar.prim? = some p) : t = p.type ∨ t = p.type.nullable := by
  rcases t with ⟨d, _ | ⟨a, _ | ⟨b, as⟩⟩⟩ | _
  · exact .inl (prim_eq h)
  · rw [Ty.scalar] at h
    split_ifs at h with hd
    · exact .inr (by rw [hd, prim_eq h]; rfl)
    · cases h
  · cases h
  · cases h

theorem typeName_nullable (t : Ty) : typeName t.nullable = "Nullable\x601".toList := by
  have harity : ownArity nullableDef [t] = 1 := rfl
  rw [Ty.nullable, typeName, harity]
  decide

theorem getDefaultValue_prim (h : t.scalar.prim? = some p) (hs : p ≠ .string)
    (hb : p ≠ .boolean) {v : Const} (hv : v ≠ .null) : getDefaultValue rt t v = toText rt t v := by
  have hname : typeName t ≠ "String".toList ∧ typeName t ≠ "Boolean".toList := by
    rcases scalar_eq h with rfl | rfl
    · cases p <;> first | contradiction | decide
    · rw [typeName_nullable]
      decide
  rw [getDefaultValue, if_neg hv, if_neg hname.1, if_neg hname.2]

theorem typeName_switched (h : GoodType lookup t) (hp : replaced p.systemName.1 = some p)
    (hname : typeName t = p.systemName.1) : t = p.type := by
  have hword : ∀ c ∈ p.systemName.1, isIdentChar c = true := by
    have := p.systemName.2
    rw [isWord, Bool.and_eq_true] at this
    simpa using this.2
  have hend : ∀ {s s' : Text} {c : Char}, isIdentChar c = false → s ++ c :: s' ≠ p.systemName.1 :=
    fun hc heq => by
      have := hword _ (heq ▸ mem_append_right _ mem_cons_self)
      rw [this] at hc
      cases hc
  rcases t with ⟨d, _ | ⟨a, as⟩⟩ | ⟨r, elem⟩
  · have hd : d.name.1 = p.systemName.1 := by simpa [typeName, ownArity] using hname
    rw [GoodType, hd, hp] at h
    rw [h]
    rfl
  · rw [GoodType] at h
    split_ifs at h with hnull
    · rw [isNullable, decide_eq_true_eq, hname] at hnull
      have heq : "Nullable".toList ++ '\x60' :: ['1'] = p.systemName.1 := hnull.symm
      exact absurd heq (hend (by decide))
    · rw [typeName, if_neg (by omega)] at hname
      exact absurd hname (hend (by decide))
  · rw [typeName, Suffix.text] at hname
    exact absurd hname (hend (by decide))

theorem intText_eq (n : ℤ) :
    intText n = signText (n < 0) ++ (Number.mk (Nat.toDigits 10 n.natAbs) [] none).text := by
  unfold intText
  split_ifs with h <;> simp [signText, h, Number.text, fractionText, exponentText]

theorem valid_digits (n : ℕ) (f : Text) (hf : f.all Char.isDigit = true) :
    (Number.mk (Nat.toDigits 10 n) f none).Valid where
  ne_nil := Nat.toDigits_ne_nil
  whole := all_eq_true.2 fun _ hc => Nat.isDigit_of_mem_toDigits (by omega) (by omega) hc
  fraction := hf

theorem number_int (n : ℤ) : (Number.mk (Nat.toDigits 10 n.natAbs) [] none).int (n < 0) = n := by
  rw [Number.int, Nat.ofDigitChars_ten_toDigits]
  split_ifs with h <;> simp at h <;> omega

theorem denotes_int_iff {v : Const} (hv : v.isNumeric = true) : Denotes floats t (intText n) v ↔
      numberConst floats t (n < 0) (.mk (Nat.toDigits 10 n.natAbs) [] none) = some v := by
  rw [intText_eq]
  exact denotes_number_iff (valid_digits _ _ rfl) hv

theorem scalar_type (p : Prim) : p.type.scalar = p.type := rfl

theorem scalar_isEnum (h : t.scalar.prim? = some p) : t.scalar.isEnum = false := by
  rw [prim_eq h]
  cases p <;> rfl

theorem isLiteralInt_of_range {r : ℤ × ℤ} (hr : p.range = some r) (h₁ : r.1 ≤ n)
    (h₂ : n ≤ r.2) : isLiteralInt n = true := by
  cases p <;> cases hr <;> simp only [isLiteralInt, Bool.and_eq_true, decide_eq_true_eq] at * <;>
    omega

theorem ofInteger_range {r : ℤ × ℤ} (hr : p.range = some r) (neg : Bool) (n : Number) :
    p.ofInteger floats neg n =
      if r.1 ≤ n.int neg ∧ n.int neg ≤ r.2 then some (.int (n.int neg)) else none := by
  cases p <;> cases hr <;> rfl

theorem denotes_int (h : Permitted t (.int n)) :
    Denotes floats t (getDefaultValue rt t (.int n)) (.int n) := by
  obtain ⟨p, r, hp, hr, h₁, h₂⟩ := h
  rw [getDefaultValue_prim (v := .int n) hp (by rintro rfl; cases hr) (by rintro rfl; cases hr)
    nofun,
    toText, denotes_int_iff rfl, numberConst]
  rw [number_int, isLiteralInt_of_range hr h₁ h₂, scalar_isEnum hp, hp]
  simp [Number.isInteger, ofInteger_range hr, number_int, h₁, h₂]

theorem denotes_single_iff {x : BitVec 32} (h : Permitted t (.single x)) :
    Denotes floats t (getDefaultValue rt t (.single x)) (.single x) ↔
      GoodDefault floats rt t (.single x) := by
  have hp : t.scalar.prim? = some .single := h
  rw [getDefaultValue_prim (v := .single x) hp nofun nofun nofun, toText, GoodDefault]
  rcases htext : rt.singleText x with _ | neg | ⟨neg, n, hn⟩
  · exact iff_of_false (not_denotes_of_head false (by decide) rfl rfl) (by simp)
  · exact iff_of_false (not_denotes_of_head neg (by decide) rfl rfl) (by simp)
  · rw [FloatText.text, denotes_number_iff hn rfl, numberConst, scalar_isEnum hp, hp]
    by_cases hint : n.isInteger = true <;> by_cases hlit : isLiteralInt (n.int neg) = true <;>
      simp [hint, hlit, hn, Prim.ofInteger, and_assoc]

theorem denotes_double_iff {x : BitVec 64} (h : Permitted t (.double x)) :
    Denotes floats t (getDefaultValue rt t (.double x)) (.double x) ↔
      GoodDefault floats rt t (.double x) := by
  have hp : t.scalar.prim? = some .double := h
  rw [getDefaultValue_prim (v := .double x) hp nofun nofun nofun, toText, GoodDefault]
  rcases htext : rt.doubleText x with _ | neg | ⟨neg, n, hn⟩
  · exact iff_of_false (not_denotes_of_head false (by decide) rfl rfl) (by simp)
  · exact iff_of_false (not_denotes_of_head neg (by decide) rfl rfl) (by simp)
  · rw [FloatText.text, denotes_number_iff hn rfl, numberConst, scalar_isEnum hp, hp]
    by_cases hint : n.isInteger = true <;> by_cases hlit : isLiteralInt (n.int neg) = true <;>
      simp [hint, hlit, hn, Prim.ofInteger, and_assoc]

theorem denotes_decimal_iff {c : ℤ} {k : ℕ} (h : Permitted t (.decimal c k)) :
    Denotes floats t (getDefaultValue rt t (.decimal c k)) (.decimal c k) ↔
      GoodDefault floats rt t (.decimal c k) := by
  have hp : t.scalar.prim? = some .decimal := h
  have hvalid : (decimalNumber c k).Valid := valid_digits _ _ (by
    split_ifs
    · rfl
    · simp only [all_append, all_replicate, Bool.and_eq_true]
      exact ⟨by split_ifs <;> rfl, (valid_digits (c.natAbs % 10 ^ k) [] rfl).whole⟩)
  rw [getDefaultValue_prim (v := .decimal c k) hp nofun nofun nofun, toText, GoodDefault,
    denotes_number_iff hvalid rfl,
    numberConst, scalar_isEnum hp, hp]
  rcases k with _ | k
  · have hone : decimalNumber c 0 = .mk (Nat.toDigits 10 c.natAbs) [] none := by
      simp [decimalNumber]
    rw [hone, number_int]
    simp [Number.isInteger, Prim.ofInteger, number_int]
  · have hfraction : (decimalNumber c (k + 1)).isInteger = false := by
      simp [decimalNumber, Number.isInteger, Nat.toDigits_ne_nil]
    simp [hfraction]

theorem denotes_enum_iff (hgood : GoodType lookup t) (h : Permitted t (.enum n)) :
    Denotes floats t (getDefaultValue rt t (.enum n)) (.enum n) ↔
      GoodDefault floats rt t (.enum n) := by
  have henum : t.scalar.isEnum = true := h
  have hname : ∀ p : Prim, replaced p.systemName.1 = some p → typeName t ≠ p.systemName.1 := by
    intro p hp hname
    rw [typeName_switched hgood hp hname, scalar_type] at henum
    cases p <;> cases henum
  have hnumber : Denotes floats t (intText n) (.enum n) ↔ n = 0 := by
    rw [denotes_int_iff rfl, numberConst, number_int, henum]
    by_cases hn : n = 0
    · simp [hn, Number.isInteger, isLiteralInt]
    · simp [hn, Number.isInteger]
  have hstring : typeName t ≠ "String".toList := hname .string (by decide)
  have hboolean : typeName t ≠ "Boolean".toList := hname .boolean (by decide)
  rw [getDefaultValue, if_neg nofun, if_neg hstring, if_neg hboolean, toText, GoodDefault]
  rcases t with ⟨d, args⟩ | _
  · rw [enumText]
    split_ifs with hd
    · rw [hnumber]
      exact ⟨fun hn => ⟨hn, fun _ _ heq => .inl (by cases heq; exact hd)⟩, fun hn => hn.1⟩
    · rcases hnames : rt.enumNames d n with _ | ⟨w, ws⟩
      · rw [hnumber]
        refine ⟨fun hn => ⟨hn, ?_⟩, fun hn => hn.1⟩
        rintro _ _ ⟨⟩
        exact .inr (hn ▸ hnames)
      · obtain ⟨x, hx⟩ := w
        rcases x with _ | ⟨c, x⟩
        · cases hx
        simp only [isWord, head?_cons, Option.any_some, Bool.and_eq_true,
          Bool.not_eq_true'] at hx
        refine iff_of_false (not_denotes_of_head false ?_ hx.1.2 rfl) ?_
        · rintro rfl
          cases hx.1.1
        · rintro ⟨rfl, hall⟩
          rcases hall d args rfl with hd' | hnil
          · exact hd hd'
          · rw [hnil] at hnames
            cases hnames
  · cases henum

theorem denotes_default_iff {v : Const} (hgood : GoodType lookup t) (h : Permitted t v) :
    Denotes floats t (getDefaultValue rt t v) v ↔ GoodDefault floats rt t v := by
  cases v with
  | null =>
    refine ⟨fun h => h.null, fun h => .word ?_⟩
    have hvalue : t.isValueType = false := h
    simp [getDefaultValue, wordConst, hvalue]
  | bool b =>
    have hp : t.scalar.prim? = some .boolean := h
    rcases scalar_eq hp with rfl | rfl
    · refine iff_of_true (.word ?_) (prim_type _)
      cases b <;> rfl
    · refine iff_of_false (fun hd => ?_) (by rintro ⟨⟩)
      have hs := hd.bool.1
      rw [getDefaultValue, if_neg nofun, typeName_nullable, if_neg (by decide),
        if_neg (by decide), toText] at hs
      cases b <;> exact absurd hs (by decide)
  | char c =>
    refine iff_of_false (fun hd => ?_) id
    have := hd.char_length
    rw [getDefaultValue_prim (v := .char c) h nofun nofun nofun] at this
    exact absurd (show 2 ≤ 1 from this) (by omega)
  | int n => exact iff_of_true (denotes_int h) trivial
  | single x => exact denotes_single_iff h
  | double x => exact denotes_double_iff h
  | decimal c k => exact denotes_decimal_iff h
  | string s =>
    obtain rfl := prim_eq h
    rw [GoodDefault, ← unescape_self_iff, ← denotes_string_iff h]
    rfl
  | enum n => exact denotes_enum_iff hgood h

end Defaults

section Methods

variable {lookup : Text → ℕ → Option TypeDef} {floats : Floats} {rt : Runtime} {p : ParameterInfo}

theorem paramPrefix_iff : paramPrefix p = p.modifier.text ↔
    p.modifier ≠ .params ∧ (p.outAttribute = true → p.modifier = .out) := by
  rw [paramPrefix, ParameterInfo.isOut, ParameterInfo.isByRef]
  cases p.modifier <;> cases p.outAttribute <;> decide

theorem declares_iff :
    (∃ s, emitParam rt p = some s ∧ s.Declares lookup floats p) ↔ GoodParam lookup floats rt p := by
  have hfound : (p.isByRef && !isFound p.type) = true ↔ ¬ (p.isByRef = true → isFound p.type = true)
    := by
    simp
  constructor
  · rintro ⟨s, hs, h⟩
    rw [emitParam] at hs
    split_ifs at hs with hno
    · cases hs
    · simp only [Option.bind_eq_bind, Option.bind_eq_some_iff, Option.pure_def,
        Option.some.injEq] at hs
      obtain ⟨type, htype, rfl⟩ := hs
      have hgood := denotesType_iff.1 ⟨type, htype, h.type⟩
      refine ⟨hgood, of_not_not (mt hfound.2 hno), paramPrefix_iff.1 h.modifier, h.name.2, ?_⟩
      intro v hv
      have hdefault := h.default
      rw [hv] at hdefault
      cases hdefault with
      | some hd => exact (denotes_default_iff hgood (p.permitted v hv).2).1 hd
  · intro h
    obtain ⟨type, htype, hdenotes⟩ := denotesType_iff.2 h.type
    refine ⟨_, by rw [emitParam, if_neg (mt hfound.1 (not_not.2 h.found)), htype]; rfl,
      paramPrefix_iff.2 h.modifier, hdenotes, ⟨rfl, h.name⟩, ?_⟩
    rcases hv : p.default with _ | v
    · exact .none
    · exact .some ((denotes_default_iff h.type (p.permitted v hv).2).2 (h.default v hv))

theorem forwards_of_good (h : GoodParam lookup floats rt p) : (emitArgument p).Forwards p :=
  ⟨⟨rfl, h.name⟩, paramPrefix_iff.2 h.modifier, ⟨rfl, h.name⟩⟩

theorem exists_mapM_iff {α β : Type*} {f : α → Option β} {P : β → α → Prop} : ∀ {l : List α},
    (∃ ss, l.mapM f = some ss ∧ List.Forall₂ P ss l) ↔ ∀ a ∈ l, ∃ s, f a = some s ∧ P s a
  | [] => by simp
  | a :: l => by
    rw [forall_mem_cons, ← exists_mapM_iff]
    simp only [mapM_cons, Option.bind_eq_bind, Option.bind_eq_some_iff, Option.pure_def,
      Option.some.injEq]
    constructor
    · rintro ⟨_, ⟨s, hs, ss, hss, rfl⟩, _ | ⟨h, hrest⟩⟩
      exact ⟨⟨s, hs, h⟩, ss, hss, hrest⟩
    · rintro ⟨⟨s, hs, h⟩, ss, hss, hrest⟩
      exact ⟨s :: ss, ⟨s, hs, ss, hss, rfl⟩, .cons h hrest⟩

theorem foldlM_addNamespace : ∀ {ts : List Ty} {dict dict' : List (List Text)},
    ts.foldlM addNamespace dict = some dict' ↔ (∀ t ∈ ts, namespaceOf t ≠ []) ∧
      dict' = ts.foldl (fun dict t =>
        if namespaceOf t ∈ dict then dict else dict ++ [namespaceOf t]) dict
  | [], dict, dict' => ⟨fun h => ⟨nofun, (Option.some.inj h).symm⟩, fun h => congrArg some h.2.symm⟩
  | t :: ts, dict, dict' => by
    rw [foldlM_cons, foldl_cons, forall_mem_cons, addNamespace]
    by_cases h : namespaceOf t = []
    · simp [h]
    · rw [if_neg h, Option.bind_eq_bind, Option.bind_some, foldlM_addNamespace]
      simp only [h, ne_eq, not_false_eq_true, true_and]

theorem emitExecute_eq_some {db : Name} {proc : StoredProc} {dict dict' : List (List Text)}
    {m : MethodInfo} {s : MethodText} (h : emitExecute rt db proc dict m = some (dict', s)) :
    (∀ t ∈ m.types, namespaceOf t ≠ []) ∧ dict' = imports dict m ∧
      getTypeName m.returnType = some s.returnType ∧ m.params.mapM (emitParam rt) = some s.params ∧
      s.name = proc.name.1 := by
  simp only [emitExecute, Option.bind_eq_bind, Option.bind_eq_some_iff, Option.pure_def,
    Option.some.injEq, Prod.mk.injEq] at h
  obtain ⟨d, hd, type, htype, params, hparams, rfl, rfl⟩ := h
  obtain ⟨hspaces, rfl⟩ := foldlM_addNamespace.1 hd
  exact ⟨hspaces, rfl, htype, hparams, rfl⟩

/-- The emitted texts declare the method exactly if its types, names, modifiers and defaults are
good. -/
theorem faithful_iff (c : Compilation) (db : Name) (proc : StoredProc) (dict : List (List Text))
    (m : MethodInfo) : Faithful floats rt c db proc dict m ↔ Good floats rt c proc dict m := by
  constructor
  · rintro ⟨dict', s, hemit, h⟩
    obtain ⟨hspaces, rfl, htype, hparams, hname⟩ := emitExecute_eq_some hemit
    exact ⟨hspaces, denotesType_iff.1 ⟨_, htype, h.returnType⟩, hname ▸ h.name.2,
      fun p hp => declares_iff.1 (exists_mapM_iff.1 ⟨_, hparams, h.params⟩ p hp)⟩
  · intro h
    obtain ⟨type, htype, hdenotes⟩ := denotesType_iff.2 h.returnType
    obtain ⟨params, hparams, hdeclares⟩ :=
      exists_mapM_iff.2 fun p hp => declares_iff.2 (h.params p hp)
    refine ⟨imports dict m, ?_⟩
    rw [emitExecute, foldlM_addNamespace.2 ⟨h.spaces, rfl⟩]
    simp only [Option.bind_eq_bind, Option.bind_some, htype, hparams, Option.pure_def,
      Option.some.injEq, Prod.mk.injEq]
    refine ⟨_, ⟨rfl, rfl⟩, hdenotes, ⟨rfl, h.name⟩, hdeclares, ?_⟩
    rw [List.forall₂_map_left_iff, List.forall₂_same]
    exact fun p hp => forwards_of_good (h.params p hp)

theorem matrix_not_faithful : ¬ ∃ floats rt c db proc dict,
    Faithful floats rt c db proc dict
      { name := name "Execute", returnType := Prim.int32.type
        params := [{ name := name "cells", type := .array 1 Prim.int32.type, modifier := .value
                     permitted := by simp }] } := by
  rintro ⟨floats, rt, c, db, proc, dict, dict', s, hemit, h⟩
  obtain ⟨-, -, -, hparams, -⟩ := emitExecute_eq_some hemit
  have hgood := declares_iff.1 (exists_mapM_iff.1 ⟨_, hparams, h.params⟩ _ mem_cons_self)
  have hrank := hgood.type
  rw [GoodType] at hrank
  exact absurd hrank.1 (by decide)

end Methods

end AciX.DalGen
