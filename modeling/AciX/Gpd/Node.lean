import AciX.Gpd.Build

/-!
# What a call leaves behind

A node of a stem may miss a name if as many other names of that stem as it may list have no fewer
persons. If every letter that may have to be followed is plain, a call writes `Valid` content into
its node, and makes the calls that this content leads to, at most 103 deep (`visits`).
-/

namespace AciX.Gpd

open List Sql

section Condition

variable (lookup : List CityRow) (city : City) (maxTopN : ℕ)

def stemNames (k : Key) : List (Text × ℤ) :=
  (names lookup city k).filter fun r => k.stem.isPrefixOf (collate r.1)

def limit (k : Key) : ℕ := if k = Key.root then maxTopN else 50

/-- There is an order of names with as many persons in which the node does not list `x`. -/
def MayMiss (k : Key) (x : Text) : Prop :=
  x ∈ groupKeys collate (stemNames lookup city k) ∧
    Missable collate (stemNames lookup city k) (limit maxTopN k) x

inductive First : Key → Prop
  | root : First Key.root
  | firstNames {x : Text} (h : x ∈ groupKeys collate (names lookup city Key.root)) :
      First (Key.firstNames x)

inductive Entered : Key → Prop
  | first {k : Key} (h : First lookup city k) : Entered k
  | extend {k : Key} {x : Text} {c : Char} (h : Entered k) (hx : MayMiss lookup city maxTopN k x)
      (hc : k.stem ++ [c] <+: x) : Entered (k.extend [c])

/-- No letter that a node may have to follow is a blank, a quote or a wildcard. -/
def PlainLetters : Prop :=
  ∀ k x c, Entered lookup city maxTopN k → MayMiss lookup city maxTopN k x →
    k.stem ++ [c] <+: x → Sql.isPlain c = true

/-- No name may be left out both at the first node and at the node of all its letters. -/
def NoneMissed : Prop :=
  ∀ k x, First lookup city k →
    ¬(MayMiss lookup city maxTopN k x ∧ MayMiss lookup city maxTopN (k.extend x) x)

end Condition

section Canon

namespace Key

variable {k : Key}

theorem stem_canon (k : Key) : k.canon.stem = collate k.stem := by
  rcases k with ⟨l, _ | f⟩ <;> rfl

theorem canon_canon (k : Key) : k.canon.canon = k.canon := by
  rcases k with ⟨l, _ | f⟩ <;> simp [canon, collate_collate]

theorem extend_nil (k : Key) : k.extend [] = k := by
  rcases k with ⟨l, _ | f⟩ <;> simp [extend]

theorem extend_extend (k : Key) (s t : Text) : (k.extend s).extend t = k.extend (s ++ t) := by
  rcases k with ⟨l, _ | f⟩ <;> simp [extend]

theorem stem_extend (k : Key) (s : Text) : (k.extend s).stem = k.stem ++ s := by
  rcases k with ⟨l, _ | f⟩ <;> rfl

theorem canon_firstNames (x : Text) : (firstNames x).canon = firstNames (collate x) := rfl

theorem canon_extend (hk : PlainStem k.stem) {s : Text} (hs : PlainStem s) :
    (k.extend s).canon = k.canon.extend (collate s) := by
  have hplain := (hk.append hs).collate
  rw [map_append, ← hk.collate, ← hs.collate] at hplain
  rcases k with ⟨l, _ | f⟩
  · exact congrArg (Key.mk · none) hplain
  · exact congrArg (fun t => Key.mk (collate l) (some t)) hplain

end Key

variable (lookup : List CityRow) (city : City) {k : Key}

theorem names_canon (k : Key) : names lookup city k.canon = names lookup city k := by
  rcases k with ⟨l, _ | f⟩
  · rfl
  · have h : ∀ r : CityRow, textEq r.lastName (collate l) = textEq r.lastName l := by
      intro r
      rw [Bool.eq_iff_iff, textEq_iff, textEq_iff, collate_collate]
    simp only [names, Key.canon, Option.map_some, h]

theorem names_extend (k : Key) (s : Text) :
    names lookup city (k.extend s) = names lookup city k := by
  rcases k with ⟨l, _ | f⟩ <;> rfl

theorem length_le_of_mem_names {r : Text × ℤ} (h : r ∈ names lookup city k) : r.1.length ≤ 50 := by
  rcases k with ⟨l, _ | f⟩
  · obtain ⟨s, -, rfl⟩ := mem_map.1 h
    exact s.lastName_le
  · obtain ⟨s, -, rfl⟩ := mem_map.1 h
    exact s.firstName_le

variable {lookup city}

theorem mem_stemNames {r : Text × ℤ} :
    r ∈ stemNames lookup city k ↔ r ∈ names lookup city k ∧ k.stem <+: collate r.1 := by
  simp [stemNames, List.isPrefixOf_iff_prefix]

theorem mem_keys_stemNames {x : Text} : x ∈ groupKeys collate (stemNames lookup city k) ↔
      x ∈ groupKeys collate (names lookup city k) ∧ k.stem <+: x := by
  rw [mem_groupKeys, mem_groupKeys]
  constructor
  · rintro ⟨r, hr, rfl⟩
    obtain ⟨hr, hp⟩ := mem_stemNames.1 hr
    exact ⟨⟨r, hr, rfl⟩, hp⟩
  · rintro ⟨⟨r, hr, rfl⟩, hp⟩
    exact ⟨r, mem_stemNames.2 ⟨hr, hp⟩, rfl⟩

theorem length_le_of_mem_keys {x : Text}
    (h : x ∈ groupKeys collate (names lookup city k)) : x.length ≤ 50 := by
  obtain ⟨r, hr, rfl⟩ := mem_groupKeys.1 h
  obtain ⟨b, hb, -⟩ := exists_rtrim_append r.1
  have hlen := length_le_of_mem_names lookup city hr
  rw [hb, length_append] at hlen
  rw [length_collate, len]
  omega

end Canon

section Node

variable {server : Server} {lookup : List CityRow} {city : City} {maxTopN : ℕ} {k : Key}
  {d : Directory}

theorem filter_startsWith (hk : PlainStem k.stem) {l : List (Text × ℤ)}
    (hl : l.Perm (names lookup city k)) :
    (l.filter fun r => startsWith k.stem r.1).Perm (stemNames lookup city k.canon) := by
  have hfilter : (fun r : Text × ℤ => startsWith k.stem r.1) =
      fun r => k.canon.stem.isPrefixOf (collate r.1) := by
    funext r
    rw [Bool.eq_iff_iff, startsWith, hk.like, List.isPrefixOf_iff_prefix, Key.stem_canon,
      hk.collate]
  rw [hfilter, stemNames, names_canon]
  exact hl.filter _

variable (server lookup city maxTopN) in
structure Valid (k : Key) (c : Content) : Prop where
  top : ∃ d l, l.Perm (stemNames lookup city k) ∧
    c.top = (server.order d (groupBy collate l)).take (limit maxTopN k)
  letters : ∀ g ∈ c.letters, ∃ e x, g.1 = [e] ∧ Sql.isPlain (foldChar e) = true ∧
    MayMiss lookup city maxTopN k x ∧ k.stem ++ [foldChar e] <+: x ∧
    limit maxTopN k ≤ c.top.length
  covers : ∀ x ∈ groupKeys collate (stemNames lookup city k),
    (∀ t ∈ c.top, collate t.1 ≠ x) → x ≠ k.stem →
      ∃ g ∈ c.letters, k.stem ++ collate g.1 <+: x

theorem Valid.mem_top {c : Content} (h : Valid server lookup city maxTopN k c) {t : Text × ℤ}
    (ht : t ∈ c.top) : ∃ r ∈ stemNames lookup city k, r.1 = t.1 := by
  obtain ⟨d, l, hl, htop⟩ := h.top
  rw [htop] at ht
  obtain ⟨⟨r, hr, hrt⟩, -⟩ := mem_groupBy ((server.order_perm d _).mem_iff.1 (mem_of_mem_take ht))
  exact ⟨r, hl.mem_iff.1 hr, hrt⟩

theorem mayMiss_of_unlisted {l : List (Text × ℤ)} (hl : l.Perm (stemNames lookup city k))
    {n : ℕ} (hn : n = limit maxTopN k) {x : Text}
    (hx : x ∈ groupKeys collate (stemNames lookup city k))
    (hnot : ∀ t ∈ (server.order d (groupBy collate l)).take n, collate t.1 ≠ x) :
    MayMiss lookup city maxTopN k x ∧ ((server.order d (groupBy collate l)).take n).length = n := by
  have hx' : x ∈ groupKeys collate l := (groupKeys_perm hl).mem_iff.2 hx
  obtain ⟨hmiss, hlen⟩ := missable_of_notMem_take (server.order_perm d _)
    (server.order_desc d _) hx' hnot
  rw [hn] at hmiss
  exact ⟨⟨hx, (missable_perm hl).1 hmiss⟩, hlen⟩

theorem Valid.mayMiss {c : Content} (h : Valid server lookup city maxTopN k c) {x : Text}
    (hx : x ∈ groupKeys collate (stemNames lookup city k))
    (hnot : ∀ t ∈ c.top, collate t.1 ≠ x) : MayMiss lookup city maxTopN k x := by
  obtain ⟨d, l, hl, htop⟩ := h.top
  rw [htop] at hnot
  exact (mayMiss_of_unlisted hl rfl hx hnot).1

end Node

section Letters

variable {server : Server} {lookup : List CityRow} {city : City} {maxTopN : ℕ} {k : Key}
  {d : Directory} {listed : List (Text × ℤ)} {r : Text × ℤ}

def Unlisted (lookup : List CityRow) (city : City) (k : Key) (listed : List (Text × ℤ))
    (r : Text × ℤ) : Prop :=
  r ∈ stemNames lookup city k ∧ collate r.1 ≠ k.stem ∧
    ∀ t ∈ listed, collate t.1 ≠ collate r.1

theorem Unlisted.letter (h : Unlisted lookup city k.canon listed r) :
    ∃ e, Sql.letterAt r.1 (len k.stem + 1) = [e] ∧
      k.canon.stem ++ [foldChar e] <+: collate r.1 := by
  obtain ⟨hr, hne, -⟩ := h
  obtain ⟨-, hp⟩ := mem_stemNames.1 hr
  have hlen : k.canon.stem.length = len k.stem := by
    rw [Key.stem_canon, length_collate]
  have hlt : k.canon.stem.length < len r.1 := by
    rw [← length_collate]
    exact lt_of_le_of_ne hp.length_le fun h => hne (hp.eq_of_length h).symm
  rw [← hlen]
  exact exists_letterAt hp hlt

theorem mem_letterRows (server : Server) (d : Directory) (hk : PlainStem k.stem) :
    r ∈ (server.scan d (names lookup city k)).filter (fun r =>
        startsWith k.stem r.1 && len k.stem < len r.1 && !listed.any fun t => textEq t.1 r.1) ↔
      Unlisted lookup city k.canon listed r := by
  have hstart := filter_startsWith hk (server.scan_perm d (names lookup city k))
  have hmem : (r ∈ server.scan d (names lookup city k) ∧ startsWith k.stem r.1 = true) ↔
      r ∈ stemNames lookup city k.canon := by
    rw [← hstart.mem_iff, mem_filter]
  have hlisted : (!listed.any fun t => textEq t.1 r.1) = true ↔
      ∀ t ∈ listed, collate t.1 ≠ collate r.1 := by
    simp [← textEq_iff]
  rw [mem_filter, Bool.and_eq_true, Bool.and_eq_true, decide_eq_true_eq, hlisted, and_assoc,
    ← and_assoc, hmem, Unlisted]
  refine and_congr_right fun hr => and_congr_left fun _ => ?_
  obtain ⟨-, hp⟩ := mem_stemNames.1 hr
  rw [← length_collate, ← length_collate, ← Key.stem_canon]
  constructor
  · rintro hlt heq
    rw [heq] at hlt
    omega
  · intro hne
    exact lt_of_le_of_ne hp.length_le fun h => hne (hp.eq_of_length h).symm

theorem mem_nextLetters (hk : PlainStem k.stem) {g : Text × ℤ}
    (h : g ∈ nextLetters server lookup city d k listed) :
    ∃ r e, Unlisted lookup city k.canon listed r ∧ g.1 = [e] ∧
      k.canon.stem ++ [foldChar e] <+: collate r.1 := by
  obtain ⟨g, hg, rfl⟩ := mem_map.1 h
  obtain ⟨⟨s, hs, hsg⟩, -⟩ := mem_groupBy hg
  obtain ⟨r, hr, rfl⟩ := mem_map.1 hs
  have hr := (mem_letterRows server d hk).1 hr
  obtain ⟨e, he, hp⟩ := hr.letter
  refine ⟨r, e, hr, ?_, hp⟩
  rw [← hsg, he]
  exact char_of_length rfl

theorem exists_nextLetter (server : Server) (d : Directory) (hk : PlainStem k.stem) {e : Char}
    (h : Unlisted lookup city k.canon listed r) (he : Sql.letterAt r.1 (len k.stem + 1) = [e]) :
    ∃ g ∈ nextLetters server lookup city d k listed, collate g.1 = collate [e] := by
  have hrow := mem_map_of_mem
    (f := fun r : Text × ℤ => (Sql.letterAt r.1 (len k.stem + 1), r.2))
    ((mem_letterRows server d hk).2 h)
  obtain ⟨g, hg, hkey⟩ := exists_mem_groupBy
    (mem_groupKeys.2 ⟨_, hrow, rfl⟩ : collate (Sql.letterAt r.1 _) ∈ _)
  refine ⟨_, mem_map_of_mem hg, ?_⟩
  rw [collate_char, ← he, ← hkey]
  obtain ⟨⟨s, hs, hsg⟩, -⟩ := mem_groupBy hg
  obtain ⟨r', hr', rfl⟩ := mem_map.1 hs
  obtain ⟨e', he', -⟩ := ((mem_letterRows server d hk).1 hr').letter
  simp only [← hsg, he']
  rfl

theorem limit_pos (hm : 1 ≤ maxTopN) (k : Key) : limit maxTopN k ≠ 0 := by
  unfold limit
  split_ifs
  · omega
  · omega

theorem valid_content (server : Server) (hm : 1 ≤ maxTopN) (hb : PlainLetters lookup city maxTopN)
    (hk : PlainStem k.stem) (he : Entered lookup city maxTopN k.canon) (d d' : Directory) :
    Valid server lookup city maxTopN k.canon
      ⟨topN server lookup city d k (limit maxTopN k.canon),
        nextLetters server lookup city d' k
          (topN server lookup city d k (limit maxTopN k.canon))⟩ := by
  have hl := filter_startsWith hk (server.scan_perm d (names lookup city k))
  have htop : topN server lookup city d k (limit maxTopN k.canon) =
      (server.order d (groupBy collate ((server.scan d (names lookup city k)).filter
        fun r => startsWith k.stem r.1))).take (limit maxTopN k.canon) := by
    rw [topN, rowcount, if_neg (limit_pos hm _)]
  have hmiss : ∀ r, Unlisted lookup city k.canon
      (topN server lookup city d k (limit maxTopN k.canon)) r →
        MayMiss lookup city maxTopN k.canon (collate r.1) ∧
          limit maxTopN k.canon ≤ (topN server lookup city d k (limit maxTopN k.canon)).length := by
    rintro r ⟨hr, -, hnot⟩
    rw [htop] at hnot ⊢
    obtain ⟨hmiss, hlen⟩ := mayMiss_of_unlisted hl rfl (mem_groupKeys.2 ⟨r, hr, rfl⟩) hnot
    exact ⟨hmiss, hlen.ge⟩
  refine ⟨⟨d, _, hl, htop⟩, fun g hg => ?_, fun x hx hnot hne => ?_⟩
  · obtain ⟨r, e, hr, hge, hp⟩ := mem_nextLetters hk hg
    obtain ⟨hr, hlen⟩ := hmiss r hr
    exact ⟨e, _, hge, hb _ _ _ he hr hp, hr, hp, hlen⟩
  · obtain ⟨r, hr, rfl⟩ := mem_groupKeys.1 hx
    have hr : Unlisted lookup city k.canon _ r := ⟨hr, hne, hnot⟩
    obtain ⟨e, hletter, hp⟩ := hr.letter
    obtain ⟨g, hg, hge⟩ := exists_nextLetter server d' hk hr hletter
    have hplain : PlainStem [e] := by
      intro c hc
      rw [mem_singleton.1 hc]
      exact hb _ _ _ he (hmiss r hr).1 hp
    refine ⟨g, hg, ?_⟩
    rw [hge, hplain.collate]
    exact hp

end Letters

section Visit

variable {server : Server} {lookup : List CityRow} {city : City} {maxTopN : ℕ} {d : Directory}
  {call : Call}

def IsCall (k : Key) (maxTopN : ℕ) (c : Content) (j : Call) : Prop :=
  (k.firstName = none ∧ ∃ t ∈ c.top, j = { key := Key.firstNames t.1 }) ∨
    (maxTopN ≤ c.top.length ∧ ∃ g ∈ c.letters, j = { key := k.extend g.1 })

/-- The batch of a node parses: no letter that is followed is a quote. -/
def Runs (maxTopN : ℕ) (c : Content) : Prop :=
  maxTopN ≤ c.top.length → ∀ g ∈ c.letters, '\'' ∉ g.1

theorem buildNode_eq (server : Server) (lookup : List CityRow) (city : City) (h : d.Wf)
    (hv : call.key.varchar = call.key) (hr : call.recurse = true) : ∃ d' : Directory, ∀ c : Content,
      c = ⟨topN server lookup city d call.key call.maxTopN,
        nextLetters server lookup city d' call.key
        (topN server lookup city d call.key call.maxTopN)⟩ →
      (buildNode server lookup city call d).1 = d.fillNode city call.key c ∧
      (∀ j ∈ (buildNode server lookup city call d).2, IsCall call.key call.maxTopN c j ∧
        Runs call.maxTopN c) ∧
      ((∀ g ∈ c.letters, '\'' ∉ g.1) → ∀ j, IsCall call.key call.maxTopN c j →
        j ∈ (buildNode server lookup city call d).2) := by
  set top := topN server lookup city d call.key call.maxTopN with htop
  obtain ⟨-, hnil, hnil'⟩ := h.openNode_new city call.key
  have hlisted : ((d.openNode city call.key).1.insertTopN (d.openNode city call.key).2 top).topNOf
      (d.openNode city call.key).2 = top := by
    rw [Directory.topNOf_insertTopN, hnil, if_pos rfl, nil_append]
  refine ⟨(d.openNode city call.key).1.insertTopN (d.openNode city call.key).2 top, ?_⟩
  rintro c rfl
  have hletters : (d.fillNode city call.key ⟨top, nextLetters server lookup city
      ((d.openNode city call.key).1.insertTopN (d.openNode city call.key).2 top) call.key
        top⟩).lettersOf (d.openNode city call.key).2 = nextLetters server lookup city
      ((d.openNode city call.key).1.insertTopN (d.openNode city call.key).2 top) call.key top := by
    unfold Directory.fillNode
    rw [Directory.lettersOf_insertLetters, if_pos rfl]
    exact (congrArg (· ++ _) hnil').trans (nil_append _)
  unfold Directory.fillNode at hletters
  simp only [buildNode, hv, hr, if_true, ← htop, hlisted, hletters]
  generalize nextLetters server lookup city _ call.key top = letters
  refine ⟨rfl, fun j hj => ?_, fun hquote j hj => ?_⟩
  · refine ⟨?_, fun hle g hg hquote => ?_⟩
    · split_ifs at hj with hany hf hn hn <;>
        simp only [not_mem_nil, mem_append, (server.sequence_perm _ _).mem_iff, mem_map] at hj <;>
        grind [IsCall]
    · rw [if_pos hle, any_eq_true.2 ⟨g, hg, decide_eq_true hquote⟩, if_pos rfl] at hj
      exact not_mem_nil hj
  · have hany : ((if call.maxTopN ≤ top.length then letters else []).any
        fun g => decide ('\'' ∈ g.1)) = false := by
      rw [any_eq_false]
      intro g hg
      split_ifs at hg
      · simpa using hquote g hg
      · simp at hg
    rw [hany]
    simp only [Bool.false_eq_true, if_false, mem_append, (server.sequence_perm _ _).mem_iff]
    rcases hj with ⟨hf, t, ht, rfl⟩ | ⟨hn, g, hg, rfl⟩
    · exact .inl (by simpa [hf] using ⟨t.1, ⟨t.2, ht⟩, rfl⟩)
    · exact .inr (by simpa [hn] using ⟨g.1, ⟨g.2, hg⟩, rfl⟩)

variable (lookup city maxTopN) in
structure Call.Ok (call : Call) : Prop where
  recurse : call.recurse = true
  plain : PlainStem call.key.stem
  lastName_le : call.key.lastName.length ≤ 50
  firstName_le : ∀ f, call.key.firstName = some f → f.length ≤ 50
  entered : Entered lookup city maxTopN call.key.canon
  maxTopN : call.maxTopN = limit maxTopN call.key.canon

theorem varchar_of_le {k : Key} (hl : k.lastName.length ≤ 50)
    (hf : ∀ f, k.firstName = some f → f.length ≤ 50) : k.varchar = k := by
  have hl : Sql.varchar 50 k.lastName = k.lastName := take_of_length_le hl
  have hf : k.firstName.map (Sql.varchar 50) = k.firstName := by
    rcases hk : k.firstName with _ | f
    · rfl
    · exact congrArg some (take_of_length_le (hf f hk))
  rw [Key.varchar, hl, hf]

theorem Call.Ok.varchar (h : call.Ok lookup city maxTopN) : call.key.varchar = call.key :=
  varchar_of_le h.lastName_le h.firstName_le

theorem Call.Ok.stem_le (h : call.Ok lookup city maxTopN) : call.key.canon.stem.length ≤ 50 := by
  rw [Key.stem_canon, h.plain.collate, length_map, Key.stem]
  rcases hf : call.key.firstName with _ | f
  · exact h.lastName_le
  · exact h.firstName_le f hf

theorem buildNode_filled (server : Server) (hm : 1 ≤ maxTopN)
    (hb : PlainLetters lookup city maxTopN) (hok : call.Ok lookup city maxTopN) (h : d.Wf) :
    ∃ d' : Directory, ∀ c : Content,
      c = ⟨topN server lookup city d call.key call.maxTopN,
        nextLetters server lookup city d' call.key
        (topN server lookup city d call.key call.maxTopN)⟩ →
      Valid server lookup city maxTopN call.key.canon c ∧
      (buildNode server lookup city call d).1 = d.fillNode city call.key c ∧
      ∀ j, j ∈ (buildNode server lookup city call d).2 ↔ IsCall call.key call.maxTopN c j := by
  obtain ⟨d', hbuild⟩ := buildNode_eq server lookup city h hok.varchar hok.recurse
  have hvalid := valid_content server hm hb hok.plain hok.entered d d'
  rw [← hok.maxTopN] at hvalid
  refine ⟨d', ?_⟩
  rintro c rfl
  obtain ⟨hfill, hcalls, hall⟩ := hbuild _ rfl
  refine ⟨hvalid, hfill, fun j => ⟨fun hj => (hcalls j hj).1, hall (fun g hg => ?_) j⟩⟩
  obtain ⟨e, x, hge, hplain, -⟩ := hvalid.letters g hg
  rw [hge, mem_singleton]
  exact ((isPlain_iff.1 (isPlain_of_foldChar hplain)).2.1).symm

theorem buildNode_spec (server : Server) (hm : 1 ≤ maxTopN)
    (hb : PlainLetters lookup city maxTopN) (hok : call.Ok lookup city maxTopN) (h : d.Wf) :
    ∃ c, Valid server lookup city maxTopN call.key.canon c ∧
      (buildNode server lookup city call d).1 = d.fillNode city call.key c ∧
      ∀ j, j ∈ (buildNode server lookup city call d).2 ↔
        IsCall call.key (limit maxTopN call.key.canon) c j := by
  obtain ⟨d', hfilled⟩ := buildNode_filled server hm hb hok h
  rw [← hok.maxTopN]
  exact ⟨_, hfilled _ rfl⟩

def contentAt (city : City) (d : Directory) (k : Key) : Option Content :=
  if k.canon = k then d.content city k else none

theorem contentAt_canon (d : Directory) (k : Key) :
    contentAt city d k.canon = d.content city k := by
  rw [contentAt, if_pos k.canon_canon]
  exact Directory.content_congr k.canon_canon

def Leads (k : Key) (c : Content) (k' : Key) : Prop :=
  (k.firstName = none ∧ ∃ t ∈ c.top, k' = Key.firstNames (collate t.1)) ∨
    ∃ g ∈ c.letters, k' = k.extend (collate g.1)

def nesting (k : Key) : ℕ :=
  match k.firstName with
  | none => 102 - k.lastName.length
  | some firstName => 51 - firstName.length

theorem nesting_extend {k : Key} (c : Char) (h : k.stem.length < 50) :
    nesting (k.extend [c]) < nesting k := by
  rcases k with ⟨l, _ | f⟩
  · simp only [Key.stem, Option.getD_none] at h
    simp only [nesting, Key.extend, length_append, length_singleton]
    omega
  · simp only [Key.stem, Option.getD_some] at h
    simp only [nesting, Key.extend, length_append, length_singleton]
    omega

theorem nesting_firstNames {k : Key} (hle : k.lastName.length ≤ 50)
    (hfirst : k.firstName = none) (name : Text) : nesting (Key.firstNames name) < nesting k := by
  have hname : nesting (Key.firstNames name) = 51 := rfl
  have hlast : nesting k = 102 - k.lastName.length := by simp only [nesting, hfirst]
  omega

theorem extend_ne_root (k : Key) (c : Char) : k.extend [c] ≠ Key.root := by
  rcases k with ⟨l, _ | f⟩ <;> simp [Key.extend, Key.root]

theorem ok_firstNames {k : Key} (hk : k.firstName = none) {t : Text}
    (ht : ∃ r ∈ stemNames lookup city k, r.1 = t) :
    ({ key := Key.firstNames t } : Call).Ok lookup city maxTopN := by
  obtain ⟨r, hr, rfl⟩ := ht
  have hr := (mem_stemNames.1 hr).1
  have hroot : names lookup city k = names lookup city Key.root := by
    simp only [names, hk, Key.root]
  refine ⟨rfl, by simp [PlainStem, Key.stem, Key.firstNames],
    length_le_of_mem_names lookup city hr, by simp [Key.firstNames], .first ?_, ?_⟩
  · rw [Key.canon_firstNames]
    exact .firstNames (mem_groupKeys.2 ⟨r, hroot ▸ hr, rfl⟩)
  · rw [Key.canon_firstNames, limit, if_neg (by simp [Key.firstNames, Key.root])]

theorem extend_le {k : Key} (e : Char) (hle : k.lastName.length ≤ 50) (hlt : k.stem.length < 50) :
    (k.extend [e]).lastName.length ≤ 50 ∧
      ∀ f, (k.extend [e]).firstName = some f → f.length ≤ 50 := by
  rcases k with ⟨l, _ | f⟩
  · exact ⟨by simpa [Key.extend, Key.stem] using hlt, by simp [Key.extend]⟩
  · refine ⟨hle, ?_⟩
    rintro f' hf'
    obtain rfl := Option.some.inj hf'
    simpa [Key.stem] using hlt

theorem ok_extend (h : call.Ok lookup city maxTopN) {e : Char} {x : Text}
    (he : Sql.isPlain (foldChar e) = true) (hx : MayMiss lookup city maxTopN call.key.canon x)
    (hp : call.key.canon.stem ++ [foldChar e] <+: x) :
    ({ key := call.key.extend [e] } : Call).Ok lookup city maxTopN ∧
      call.key.canon.stem.length < 50 := by
  have hplain : PlainStem [e] := by
    intro c hc
    rwa [mem_singleton.1 hc]
  have hcanon : (call.key.extend [e]).canon = call.key.canon.extend [foldChar e] := by
    rw [Key.canon_extend h.plain hplain, hplain.collate]
    rfl
  have hlt : call.key.canon.stem.length < 50 := by
    have hlen := hp.length_le
    have := length_le_of_mem_keys (mem_keys_stemNames.1 hx.1).1
    rw [length_append, length_singleton] at hlen
    omega
  have hstem : call.key.stem.length < 50 := by
    rwa [Key.stem_canon, h.plain.collate, length_map] at hlt
  obtain ⟨hle, hle'⟩ := extend_le e h.lastName_le hstem
  refine ⟨⟨rfl, ?_, hle, hle', ?_, ?_⟩, hlt⟩
  · rw [Key.stem_extend]
    exact h.plain.append hplain
  · rw [hcanon]
    exact .extend h.entered hx hp
  · rw [hcanon, limit, if_neg (extend_ne_root _ _)]

theorem visits (server : Server) (hm : 1 ≤ maxTopN) (hb : PlainLetters lookup city maxTopN) :
    Visits (contentAt city) (Valid server lookup city maxTopN) Leads (fun call => call.key.canon)
      nesting (Call.Ok lookup city maxTopN) Directory.Wf (buildNode server lookup city) where
  keeps := by
    intro call d hok h
    obtain ⟨c, -, hbuild, -⟩ := buildNode_spec server hm hb hok h
    rw [hbuild]
    exact h.fillNode c
  writes := by
    intro call d hok h
    obtain ⟨c, hvalid, hbuild, hcalls⟩ := buildNode_spec server hm hb hok h
    refine ⟨c, ?_, hvalid, fun k hk => ?_⟩
    · rw [hbuild, contentAt_canon]
      exact Directory.content_fillNode h c
    · rcases hk with ⟨hf, t, ht, rfl⟩ | ⟨g, hg, rfl⟩
      · refine ⟨_, (hcalls _).2 (.inl ⟨?_, t, ht, rfl⟩), rfl⟩
        exact Option.map_eq_none_iff.1 hf
      · obtain ⟨e, x, hge, he, -, -, hlen⟩ := hvalid.letters g hg
        have hplain : PlainStem g.1 := by
          intro c hc
          rw [hge, mem_singleton] at hc
          rwa [hc]
        exact ⟨_, (hcalls _).2 (.inr ⟨hlen, g, hg, rfl⟩), Key.canon_extend hok.plain hplain⟩
  frame := by
    intro call d k hok h hk
    obtain ⟨c, -, hbuild, -⟩ := buildNode_spec server hm hb hok h
    unfold contentAt
    split_ifs with hcanon
    · rw [hbuild]
      exact Directory.content_fillNode_other h c (hcanon.trans_ne hk)
    · rfl
  goes := by
    intro call d j hok h hj
    obtain ⟨c, hvalid, -, hcalls⟩ := buildNode_spec server hm hb hok h
    rcases (hcalls j).1 hj with ⟨hf, t, ht, rfl⟩ | ⟨-, g, hg, rfl⟩
    · have hnone : call.key.canon.firstName = none := Option.map_eq_none_iff.2 hf
      refine ⟨ok_firstNames hnone (hvalid.mem_top ht), ?_⟩
      have hle := hok.stem_le
      simp only [Key.stem, hnone, Option.getD_none] at hle
      exact nesting_firstNames hle hnone _
    · obtain ⟨e, x, hge, he, hx, hp, -⟩ := hvalid.letters g hg
      obtain ⟨hok', hlt⟩ := ok_extend hok he hx hp
      rw [hge]
      refine ⟨hok', ?_⟩
      have hplain : PlainStem [e] := by
        intro c hc
        rwa [mem_singleton.1 hc]
      simp only [Key.canon_extend hok.plain hplain, hplain.collate]
      exact nesting_extend _ hlt

end Visit

end AciX.Gpd
