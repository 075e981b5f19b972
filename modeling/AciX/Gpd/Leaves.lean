import AciX.Gpd.Complete
import AciX.Gpd.Content

/-!
# What the nodes of a city leave out

A call of `spGpdBuild` writes a node that is exact (`Determined.exactLeaf`). But the index does not
count blanks at the end of a key, so the call for a letter that is a blank finds the node it was
made from, and overwrites it with the names that go on with a blank. If no call that a build may
come to has to follow a blank, the nodes are exact once the build is done
(`leavesExact_of_blankFree`).
-/

namespace AciX.Gpd

open List Sql

section Leaf

variable (lookup : List CityRow) (city : City)

/-- A node that lists fewer names than it may has no letters, and a name of its stem that it does
not list has no more persons than any that it does. -/
structure ExactLeaf (maxTopN : ℕ) (k : Key) (c : Content) : Prop where
  leaf : c.top.length < maxTopN → c.letters = []
  missing : ∀ r ∈ names lookup city k, startsWith k.stem r.1 = true →
    (∀ t ∈ c.top, textEq t.1 r.1 = false) → ∀ t ∈ c.top, Sql.total collate
      ((names lookup city k).filter fun r => startsWith k.stem r.1) (collate r.1) ≤ t.2

variable {lookup city} {maxTopN : ℕ} {k : Key} {c : Content}

theorem Determined.exactLeaf (h : Determined lookup city maxTopN k c) :
    ExactLeaf lookup city maxTopN k c := by
  obtain ⟨⟨rows, o, hrows, ho, hdesc, htop⟩, rows', hrows', hletters⟩ := h
  obtain ⟨n, hn, hle⟩ : ∃ n, c.top = o.take n ∧ maxTopN ≤ n := by
    rw [htop, rowcount]
    split_ifs with h0
    · exact ⟨o.length, o.take_length.symm, by omega⟩
    · exact ⟨maxTopN, rfl, le_rfl⟩
  have hkey : ∀ r ∈ names lookup city k, startsWith k.stem r.1 = true → collate r.1 ∈
      groupKeys collate (rows.filter fun r => startsWith k.stem r.1) := fun r hr hs =>
    mem_groupKeys.2 ⟨r, mem_filter.2 ⟨hrows.mem_iff.2 hr, hs⟩, rfl⟩
  have hne : ∀ r : Text × ℤ, (∀ t ∈ c.top, textEq t.1 r.1 = false) →
      ∀ t ∈ o.take n, collate t.1 ≠ collate r.1 := by
    intro r hall t ht heq
    have := hall t (hn ▸ ht)
    rw [textEq_iff.2 heq] at this
    cases this
  refine ⟨fun hlt => ?_, fun r hr hs hall t ht => ?_⟩
  · rw [hletters, lettersFrom, filter_eq_nil_iff.2]
    · rfl
    · intro r hr hcond
      simp only [Bool.and_eq_true, Bool.not_eq_true', any_eq_false, Bool.not_eq_true] at hcond
      have := length_take_of_notMem ho (hkey r (hrows'.mem_iff.1 hr) hcond.1.1) (hne r hcond.2)
      rw [hn] at hlt
      omega
  · rw [total_perm (hrows.symm.filter _)]
    exact total_le_of_notMem_take ho hdesc (hkey r hr hs) (hne r hall) (hn ▸ ht)

end Leaf

section Called

variable (lookup : List CityRow) (city : City) (maxTopN : ℕ)

/-- The keys that a build may call itself with, each with the number of names its node may list. -/
inductive Called : Key → ℕ → Prop
  | root : Called Key.root maxTopN
  | name {k : Key} {n : ℕ} {c : Content} {t : Text × ℤ} (h : Called k n) (hk : k.firstName = none)
      (hc : Determined lookup city n k c) (hr : Runs n c) (ht : t ∈ c.top) :
      Called (Key.firstNames t.1) 50
  | letter {k : Key} {n : ℕ} {c : Content} {g : Text × ℤ} (h : Called k n)
      (hc : Determined lookup city n k c) (hr : Runs n c) (hn : n ≤ c.top.length)
      (hg : g ∈ c.letters) : Called (k.extend g.1) 50

/-- A node whose letters are followed has no blank among them. -/
def BlankFree : Prop :=
  ∀ k n c, Called lookup city maxTopN k n → Determined lookup city n k c → Runs n c →
    n ≤ c.top.length → ∀ g ∈ c.letters, g.1 ≠ [' ']

/-- Whatever the server does and whatever was stored before, every node that a build of the city has
written is exact when the build is done. A node is known by its key up to letter case and blanks at
the end; it stands for the names that start with the key without such blanks. -/
def LeavesExact : Prop :=
  ∀ (server : Server) (d : Directory), d.Wf → ∃ depth, ∀ depth' ≥ depth, ∃ d',
    spGpdBuild server lookup city depth' { key := Key.root, maxTopN := maxTopN } d = some d' ∧
      ∀ k c, d'.content city k = some c → d.content city k = some c ∨
        ∃ k' : Key, k'.canon = k.canon ∧ rtrim k'.stem = k'.stem ∧
          ExactLeaf lookup city (limit maxTopN k.canon) k' c

/-- A key that reaches the server as it was made and does not end in a blank. -/
structure Whole (k : Key) : Prop where
  lastName_le : k.lastName.length ≤ 50
  firstName_le : ∀ f, k.firstName = some f → f.length ≤ 50
  stem : rtrim k.stem = k.stem

variable {lookup city maxTopN} {k : Key} {n : ℕ} {c : Content}

theorem whole_root : Whole Key.root := ⟨Nat.zero_le _, by simp [Key.root], rfl⟩

theorem whole_firstNames (hc : Determined lookup city n k c) {t : Text × ℤ} (ht : t ∈ c.top) :
    Whole (Key.firstNames t.1) :=
  ⟨hc.length_top_le ht, by simp [Key.firstNames], rfl⟩

theorem Whole.extend (h : Whole k) (hc : Determined lookup city n k c) {g : Text × ℤ}
    (hg : g ∈ c.letters) (hne : g.1 ≠ [' ']) : ∃ e, g.1 = [e] ∧ e ≠ ' ' ∧
      Whole (k.extend [e]) ∧ k.stem.length < 50 := by
  obtain ⟨hlength, hlt⟩ := hc.mem_letters hg
  obtain ⟨e, he⟩ := length_eq_one_iff.1 hlength
  have hblank : e ≠ ' ' := by
    rintro rfl
    exact hne he
  rw [len, h.stem] at hlt
  have hstem : rtrim (k.stem ++ [e]) = k.stem ++ [e] := by
    unfold rtrim
    rw [rdropWhile_concat_neg]
    simpa using hblank
  obtain ⟨hle, hle'⟩ := extend_le e h.lastName_le hlt
  exact ⟨e, he, hblank, ⟨hle, hle', by rwa [Key.stem_extend]⟩, hlt⟩

theorem limit_canon_extend (h : Whole (k.extend [e])) :
    limit maxTopN (k.extend [e]).canon = 50 := by
  refine if_neg fun hroot => ?_
  have hstem := congrArg Key.stem hroot
  rw [Key.stem_canon, collate, h.stem, Key.stem_extend] at hstem
  simp [Key.root, Key.stem] at hstem

/-- The keys that are called end in no blank, and one that is not the first may list 50 names. -/
theorem Called.whole (hb : BlankFree lookup city maxTopN) (h : Called lookup city maxTopN k n) :
    Whole k ∧ n = limit maxTopN k.canon := by
  induction h with
  | root => exact ⟨whole_root, (if_pos rfl).symm⟩
  | name _ _ hc _ ht _ =>
    refine ⟨whole_firstNames hc ht, (if_neg ?_).symm⟩
    simp [Key.canon, Key.firstNames, Key.root]
  | letter h hc hr hn hg ih =>
    obtain ⟨e, he, -, hwhole, -⟩ := ih.1.extend hc hg (hb _ _ _ h hc hr hn _ hg)
    rw [he]
    exact ⟨hwhole, (limit_canon_extend hwhole).symm⟩

end Called

section Build

variable {lookup : List CityRow} {city : City} {maxTopN : ℕ} {d d' : Directory} {call : Call}

theorem buildNode_determined (server : Server) (lookup : List CityRow) (city : City) (h : d.Wf)
    (hv : call.key.varchar = call.key) (hr : call.recurse = true) : ∃ c,
      Determined lookup city call.maxTopN call.key c ∧
      (buildNode server lookup city call d).1 = d.fillNode city call.key c ∧
      ∀ j ∈ (buildNode server lookup city call d).2, IsCall call.key call.maxTopN c j ∧
        Runs call.maxTopN c := by
  obtain ⟨d', hbuild⟩ := buildNode_eq server lookup city h hv hr
  obtain ⟨hfill, hcalls, -⟩ := hbuild _ rfl
  exact ⟨_, determined_build server d d', hfill, hcalls⟩

variable (lookup city maxTopN) in
/-- What the directory holds now was there before the build, or it is exact. -/
structure Exacted (d d' : Directory) : Prop where
  wf : d'.Wf
  nodes : ∀ k c, d'.content city k = some c → d.content city k = some c ∨
    ∃ k' : Key, k'.canon = k.canon ∧ rtrim k'.stem = k'.stem ∧
      ExactLeaf lookup city (limit maxTopN k.canon) k' c

theorem Exacted.fillNode (h : Exacted lookup city maxTopN d d') {k : Key} (hk : Whole k)
    {c : Content} (hc : Determined lookup city (limit maxTopN k.canon) k c) :
    Exacted lookup city maxTopN d (d'.fillNode city k c) := by
  refine ⟨h.wf.fillNode c, fun k' c' hc' => ?_⟩
  by_cases hcanon : k'.canon = k.canon
  · rw [Directory.content_congr hcanon, Directory.content_fillNode h.wf, Option.some.injEq] at hc'
    rw [hcanon, ← hc']
    exact .inr ⟨k, rfl, hk.stem, hc.exactLeaf⟩
  · rw [Directory.content_fillNode_other h.wf c hcanon] at hc'
    exact h.nodes k' c' hc'

variable (lookup city maxTopN) in
structure Call.Meant (call : Call) : Prop where
  recurse : call.recurse = true
  called : Called lookup city maxTopN call.key call.maxTopN

theorem exacted_buildNode (server : Server) (hb : BlankFree lookup city maxTopN)
    (hcall : call.Meant lookup city maxTopN) (h : Exacted lookup city maxTopN d d') :
    Exacted lookup city maxTopN d (buildNode server lookup city call d').1 := by
  obtain ⟨hwhole, hn⟩ := hcall.called.whole hb
  obtain ⟨c, hc, hfill, -⟩ := buildNode_determined server lookup city h.wf
    (varchar_of_le hwhole.lastName_le hwhole.firstName_le) hcall.recurse
  rw [hfill]
  exact h.fillNode hwhole (hn ▸ hc)

theorem meant_buildNode (server : Server) (hb : BlankFree lookup city maxTopN)
    (hcall : call.Meant lookup city maxTopN) (h : d.Wf) {j : Call}
    (hj : j ∈ (buildNode server lookup city call d).2) :
    j.Meant lookup city maxTopN ∧ nesting j.key < nesting call.key := by
  obtain ⟨hwhole, -⟩ := hcall.called.whole hb
  obtain ⟨c, hc, -, hcalls⟩ := buildNode_determined server lookup city h
    (varchar_of_le hwhole.lastName_le hwhole.firstName_le) hcall.recurse
  obtain ⟨⟨hf, t, ht, rfl⟩ | ⟨hn, g, hg, rfl⟩, hruns⟩ := hcalls j hj
  · exact ⟨⟨rfl, .name hcall.called hf hc hruns ht⟩, nesting_firstNames hwhole.lastName_le hf _⟩
  · have hne := hb _ _ _ hcall.called hc hruns hn g hg
    obtain ⟨e, he, -, -, hlt⟩ := hwhole.extend hc hg hne
    refine ⟨⟨rfl, .letter hcall.called hc hruns hn hg⟩, ?_⟩
    rw [he]
    exact nesting_extend e hlt

end Build

section Exact

variable {lookup : List CityRow} {city : City} {maxTopN : ℕ}

theorem blankFree_of_notMem (h : ∀ r ∈ lookup, ' ' ∉ r.lastName ∧ ' ' ∉ r.firstName) :
    BlankFree lookup city maxTopN := by
  intro k n c _ hc _ _ g hg hblank
  obtain ⟨rows, hrows, hletters⟩ := hc.letters
  rw [hletters] at hg
  obtain ⟨g, hgroup, rfl⟩ := mem_map.1 hg
  obtain ⟨⟨s, hs, hsg⟩, -⟩ := mem_groupBy hgroup
  obtain ⟨r, hr, rfl⟩ := mem_map.1 hs
  obtain ⟨hr, hcond⟩ := mem_filter.1 hr
  simp only [Bool.and_eq_true, decide_eq_true_eq] at hcond
  have hname : ' ' ∉ r.1 := by
    have hr := hrows.mem_iff.1 hr
    rcases k with ⟨l, _ | f⟩
    · obtain ⟨q, hq, rfl⟩ := mem_map.1 hr
      exact (h q (mem_of_mem_filter hq)).1
    · obtain ⟨q, hq, rfl⟩ := mem_map.1 hr
      exact (h q (mem_of_mem_filter hq)).2
  have hlt : len k.stem < r.1.length := hcond.1.2.trans_le (List.rdropWhile_prefix _ _).length_le
  have hletter : letterAt r.1 (len k.stem + 1) = [r.1[len k.stem]] := by
    rw [letterAt, Nat.add_sub_cancel, drop_eq_getElem_cons hlt]
    rfl
  rw [← hsg, hletter] at hblank
  obtain ⟨hblank, -⟩ := cons.inj hblank
  exact hname (hblank ▸ getElem_mem hlt)

/-- The directory is exact if no blank has to be followed. -/
theorem leavesExact_of_blankFree (lookup : List CityRow) (city : City) (maxTopN : ℕ)
    (hb : BlankFree lookup city maxTopN) : LeavesExact lookup city maxTopN := by
  intro server d hwf
  refine ⟨103, fun depth hdepth => ?_⟩
  have hrank : nesting Key.root < depth := hdepth
  obtain ⟨d', hd', hexact⟩ := explore_keeps (fun call : Call => nesting call.key)
    (Call.Meant lookup city maxTopN) (Exacted lookup city maxTopN d)
    (fun _ _ hcall h => exacted_buildNode server hb hcall h)
    (fun _ _ _ hcall h hj => meant_buildNode server hb hcall h.wf hj)
    (i := { key := Key.root, maxTopN := maxTopN }) ⟨rfl, .root⟩ ⟨hwf, fun _ _ h => .inl h⟩ hrank
  exact ⟨d', hd', hexact.nodes⟩

/-- Five persons are called `Ab` and one has the last name `second`. -/
def abAnd (second : Text) (h : second.length ≤ 50) : List CityRow :=
  [⟨smallville, ['A', 'b'], ['X'], 5, Nat.le_of_ble_eq_true rfl, Nat.le_of_ble_eq_true rfl⟩,
    ⟨smallville, second, ['Y'], 1, h, Nat.le_of_ble_eq_true rfl⟩]

theorem abAndB_leavesExact : LeavesExact (abAnd ['B'] (by decide)) smallville 1 :=
  leavesExact_of_blankFree _ _ _ (blankFree_of_notMem (by decide))

theorem eq_root {k : Key} (h : k.canon = Key.root) (hstem : rtrim k.stem = k.stem) :
    k = Key.root := by
  rcases k with ⟨l, _ | f⟩
  · have hl : collate l = [] := congrArg Key.lastName h
    have hstem : rtrim l = l := hstem
    rw [collate, hstem, map_eq_nil_iff] at hl
    rw [hl]
    rfl
  · exact absurd (congrArg Key.firstName h) (by simp [Key.canon, Key.root])

theorem content_blank (depth : ℕ) : ∃ d, spGpdBuild (lastServer []) (abAnd [' ', 'B'] (by decide))
    smallville (depth + 4) { key := Key.root, maxTopN := 1 } {} = some d ∧
      d.content smallville Key.root = some ⟨[([' ', 'B'], 1)], []⟩ :=
  ⟨_, rfl, rfl⟩

theorem blank_not_leavesExact : ¬LeavesExact (abAnd [' ', 'B'] (by decide)) smallville 1 := by
  intro h
  obtain ⟨depth, hdepth⟩ := h (lastServer []) {} Directory.wf_empty
  obtain ⟨d, hd, hexact⟩ := hdepth (depth + 4) (Nat.le_add_right _ _)
  obtain ⟨d', hd', hc⟩ := content_blank depth
  obtain rfl : d = d' := Option.some.inj (hd.symm.trans hd')
  rcases hexact _ _ hc with hold | ⟨k', hk', hstem, hleaf⟩
  · cases hold
  · obtain rfl := eq_root hk' hstem
    have hle : (5 : ℤ) ≤ 1 := hleaf.missing (['A', 'b'], 5) (by decide) rfl (by decide)
      ([' ', 'B'], 1) (by simp)
    exact absurd hle (by decide)

end Exact

end AciX.Gpd
