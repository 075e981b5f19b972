import AciX.Gpd.Node

/-!
# When the directory is complete

A name that the first node does not list is found at the node of a longer stem; but the node of the
whole name has no letter left for it. So if every letter that may have to be followed is plain, the
directory is complete exactly when no name may be missed at both (`complete_iff`).
-/

namespace AciX.Gpd

open List Sql

section Reach

variable {server : Server} {lookup : List CityRow} {city : City} {maxTopN : ℕ} {d : Directory}
  {k : Key} {x name : Text}

variable (server lookup city maxTopN) in
abbrev Built (d : Directory) (k : Key) : Prop :=
  Fine (contentAt city) (Valid server lookup city maxTopN) Leads d k

theorem plainStem_nil : PlainStem [] := by simp [PlainStem]

theorem collate_append {s t : Text} (hs : PlainStem s) (ht : PlainStem t) :
    collate (s ++ t) = collate s ++ collate t := by
  rw [(hs.append ht).collate, hs.collate, ht.collate, map_append]

theorem Reaches.built (hk : k.stem = []) (hbuilt : Built server lookup city maxTopN d k.canon)
    {stem : Text} (h : Reaches d city k stem) : PlainStem stem ∧
      ∃ c, d.content city (k.extend stem) = some c ∧
        Valid server lookup city maxTopN (k.canon.extend (collate stem)) c ∧
        ∀ k', Leads (k.canon.extend (collate stem)) c k' →
          Built server lookup city maxTopN d k' := by
  have hplain : PlainStem k.stem := hk ▸ plainStem_nil
  have hopen : ∀ {stem : Text}, PlainStem stem →
      Built server lookup city maxTopN d (k.canon.extend (collate stem)) →
      ∃ c, d.content city (k.extend stem) = some c ∧
        Valid server lookup city maxTopN (k.canon.extend (collate stem)) c ∧
        ∀ k', Leads (k.canon.extend (collate stem)) c k' →
          Built server lookup city maxTopN d k' := by
    rintro stem hs ⟨hc, hv, hn⟩
    rw [← Key.canon_extend hplain hs, contentAt_canon] at hc
    exact ⟨_, hc, hv, hn⟩
  induction h with
  | start =>
    refine ⟨plainStem_nil, hopen plainStem_nil ?_⟩
    have hnil : collate [] = [] := rfl
    rwa [hnil, Key.extend_nil]
  | next _ hc hg ih =>
    rename_i stem c g _
    obtain ⟨hs, c', hc', hv, hn⟩ := ih
    obtain rfl : c = c' := Option.some.inj (hc.symm.trans hc')
    obtain ⟨e, -, hge, he, -⟩ := hv.letters g hg
    have hletter : PlainStem g.1 := by
      intro a ha
      rw [hge, mem_singleton] at ha
      rwa [ha]
    refine ⟨hs.append hletter, hopen (hs.append hletter) ?_⟩
    rw [collate_append hs hletter, ← Key.extend_extend]
    exact hn _ (.inr ⟨g, hg, rfl⟩)

theorem stem_canon_extend (hk : k.stem = []) (s : Text) : (k.canon.extend s).stem = s := by
  rw [Key.stem_extend, Key.stem_canon, hk]
  rfl

theorem mem_keys_extend (hk : k.stem = [])
    (hx : x ∈ groupKeys collate (names lookup city k.canon)) {s : Text} (hs : s <+: x) :
    x ∈ groupKeys collate (stemNames lookup city (k.canon.extend s)) := by
  rw [mem_keys_stemNames, names_extend, stem_canon_extend hk]
  exact ⟨hx, hs⟩

/-- A name that is listed nowhere may be missed at each stem of it that the letters lead to, and
they lead on to the next one. -/
theorem reaches_next (hk : k.stem = []) (hbuilt : Built server lookup city maxTopN d k.canon)
    (hx : collate name ∈ groupKeys collate (names lookup city k.canon))
    (hno : ¬Listed d city k name) {stem : Text} (h : Reaches d city k stem)
    (hp : collate stem <+: collate name) :
    MayMiss lookup city maxTopN (k.canon.extend (collate stem)) (collate name) ∧
      (collate name ≠ collate stem → ∃ stem', Reaches d city k stem' ∧
        collate stem' <+: collate name ∧
        (collate stem').length = (collate stem).length + 1) := by
  obtain ⟨hs, c, hc, hv, hn⟩ := h.built hk hbuilt
  have hx := mem_keys_extend hk hx hp
  have hnot : ∀ t ∈ c.top, collate t.1 ≠ collate name :=
    fun t ht heq => hno ⟨stem, c, h, hc, t, ht, textEq_iff.2 heq⟩
  refine ⟨hv.mayMiss hx hnot, fun hne => ?_⟩
  rw [← stem_canon_extend hk (collate stem)] at hne
  obtain ⟨g, hg, hp'⟩ := hv.covers _ hx hnot hne
  obtain ⟨hs', -⟩ := (Reaches.next h hc hg).built hk hbuilt
  obtain ⟨e, -, hge, he, -⟩ := hv.letters g hg
  have hletter : PlainStem g.1 := fun a ha => hs' a (mem_append_right _ ha)
  refine ⟨stem ++ g.1, .next h hc hg, ?_, ?_⟩
  · rw [collate_append hs hletter]
    rwa [stem_canon_extend hk] at hp'
  · rw [collate_append hs hletter, length_append, hletter.collate, hge]
    rfl

theorem listed_of_built (hk : k.stem = []) (hbuilt : Built server lookup city maxTopN d k.canon)
    (hx : collate name ∈ groupKeys collate (names lookup city k.canon))
    (hnot : ¬(MayMiss lookup city maxTopN k.canon (collate name) ∧
      MayMiss lookup city maxTopN (k.canon.extend (collate name)) (collate name))) :
    Listed d city k name := by
  by_contra hno
  -- the letters lead to every stem of the name, its own included
  have hreach : ∀ n ≤ (collate name).length, ∃ stem, Reaches d city k stem ∧
      collate stem <+: collate name ∧ (collate stem).length = n := by
    intro n
    induction n with
    | zero => exact fun _ => ⟨[], .start, nil_prefix, rfl⟩
    | succ n ih =>
      intro hn
      obtain ⟨stem, hr, hp, hlen⟩ := ih (by omega)
      have hne : collate name ≠ collate stem := by
        intro heq
        rw [heq] at hn
        omega
      obtain ⟨stem', hr', hp', hlen'⟩ := (reaches_next hk hbuilt hx hno hr hp).2 hne
      exact ⟨stem', hr', hp', by omega⟩
  obtain ⟨stem, hr, hp, hlen⟩ := hreach _ le_rfl
  have hown := (reaches_next hk hbuilt hx hno hr hp).1
  rw [hp.eq_of_length hlen] at hown
  have hfirst := (reaches_next hk hbuilt hx hno .start nil_prefix).1
  have hnil : collate [] = [] := rfl
  rw [hnil, Key.extend_nil] at hfirst
  exact hnot ⟨hfirst, hown⟩

theorem Listed.built (hbuilt : Built server lookup city maxTopN d Key.root)
    (h : Listed d city Key.root name) :
    Built server lookup city maxTopN d (Key.firstNames name).canon := by
  obtain ⟨stem, c, hr, hc, t, ht, heq⟩ := h
  obtain ⟨-, c', hc', -, hn⟩ := hr.built rfl hbuilt
  obtain rfl : c = c' := Option.some.inj (hc.symm.trans hc')
  rw [Key.canon_firstNames, ← textEq_iff.1 heq]
  exact hn _ (.inl ⟨rfl, t, ht, rfl⟩)

end Reach

section Miss

variable {lookup : List CityRow} {city : City} {maxTopN : ℕ} {d : Directory} {k : Key}
  {x name : Text}

def lastServer (x : Text) : Server where
  scan _ l := l
  order _ l := lastOrder collate x l
  sequence _ l := l
  scan_perm _ _ := .refl _
  order_perm _ l := lastOrder_perm x l
  order_desc _ l := descending_lastOrder x l
  sequence_perm _ _ := .refl _

theorem limit_extend (k : Key) {s : Text} (hs : s ≠ []) : limit maxTopN (k.extend s) = 50 := by
  refine if_neg ?_
  rcases k with ⟨l, _ | f⟩ <;> simp [Key.extend, Key.root, hs]

theorem MayMiss.shorter (hk : k.stem = [])
    (h : MayMiss lookup city maxTopN (k.canon.extend x) x) {s : Text} (hs : s <+: x)
    (hne : s ≠ []) : MayMiss lookup city maxTopN (k.canon.extend s) x := by
  have hx : x ≠ [] := fun hx => hne (prefix_nil.1 (hx ▸ hs))
  have hnames := (mem_keys_stemNames.1 h.1).1
  rw [names_extend] at hnames
  refine ⟨mem_keys_extend hk hnames hs, ?_⟩
  have hmiss := h.2
  rw [limit_extend _ hx] at hmiss
  rw [limit_extend _ hne]
  unfold stemNames at hmiss ⊢
  rw [names_extend, stem_canon_extend hk] at hmiss ⊢
  refine hmiss.filter_mono (q := s.isPrefixOf) (fun y hy => ?_) ?_
  · rw [List.isPrefixOf_iff_prefix] at hy ⊢
    exact hs.trans hy
  · rw [List.isPrefixOf_iff_prefix]

theorem not_listed_of_mayMiss (hk : k.stem = [])
    (hbuilt : Built (lastServer (collate name)) lookup city maxTopN d k.canon)
    (hfirst : MayMiss lookup city maxTopN k.canon (collate name))
    (hown : MayMiss lookup city maxTopN (k.canon.extend (collate name)) (collate name)) :
    ¬Listed d city k name := by
  rintro ⟨stem, c, hr, hc, t, ht, heq⟩
  obtain ⟨-, c', hc', hv, -⟩ := hr.built hk hbuilt
  obtain rfl : c = c' := Option.some.inj (hc.symm.trans hc')
  have heq := textEq_iff.1 heq
  obtain ⟨r, hr', hrt⟩ := hv.mem_top ht
  have hp := (mem_stemNames.1 hr').2
  rw [hrt, heq, stem_canon_extend hk] at hp
  have hmiss : MayMiss lookup city maxTopN (k.canon.extend (collate stem)) (collate name) := by
    by_cases hne : collate stem = []
    · rwa [hne, Key.extend_nil]
    · exact hown.shorter hk hp hne
  obtain ⟨d', l, hl, htop⟩ := hv.top
  rw [htop] at ht
  exact notMem_take_lastOrder ((missable_perm hl).2 hmiss.2) ht heq

end Miss

section Exact

variable {lookup : List CityRow} {city : City} {maxTopN : ℕ}

theorem mem_keys_root {r : CityRow} (hr : r ∈ lookup) (hc : r.city = city) :
    collate r.lastName ∈ groupKeys collate (names lookup city Key.root) :=
  mem_groupKeys.2 ⟨(r.lastName, r.personCount),
    mem_map.2 ⟨r, mem_filter.2 ⟨hr, by simpa using hc⟩, rfl⟩, rfl⟩

theorem mem_keys_firstNames {r : CityRow} (hr : r ∈ lookup) (hc : r.city = city) :
    collate r.firstName ∈ groupKeys collate (names lookup city (Key.firstNames r.lastName)) :=
  mem_groupKeys.2 ⟨(r.firstName, r.personCount),
    mem_map.2 ⟨r, mem_filter.2 ⟨hr, by simp [hc, Key.firstNames]⟩, rfl⟩, rfl⟩

theorem ok_root : ({ key := Key.root, maxTopN := maxTopN } : Call).Ok lookup city maxTopN :=
  ⟨rfl, plainStem_nil, by simp [Key.root], by simp [Key.root], .first .root, (if_pos rfl).symm⟩

theorem spGpdBuild_built (server : Server) (hm : 1 ≤ maxTopN)
    (hb : PlainLetters lookup city maxTopN) {d : Directory} (h : d.Wf) {depth : ℕ}
    (hdepth : 103 ≤ depth) :
    ∃ d', spGpdBuild server lookup city depth { key := Key.root, maxTopN := maxTopN } d = some d' ∧
      Built server lookup city maxTopN d' Key.root := by
  have hlt : nesting Key.root < depth := hdepth
  obtain ⟨d', hd', -, hbuilt, -⟩ := explore_fine (visits server hm hb) ok_root h hlt
  exact ⟨d', hd', hbuilt⟩

theorem buildsComplete_of_noneMissed (hm : 1 ≤ maxTopN) (hb : PlainLetters lookup city maxTopN)
    (hnone : NoneMissed lookup city maxTopN) : BuildsComplete lookup city maxTopN := by
  intro server d h
  refine ⟨103, fun depth hdepth => ?_⟩
  obtain ⟨d', hd', hbuilt⟩ := spGpdBuild_built server hm hb h hdepth
  refine ⟨d', hd', fun r hr hc => ?_⟩
  have hlast := mem_keys_root hr hc
  have hlisted : Listed d' city Key.root r.lastName :=
    listed_of_built rfl hbuilt hlast (hnone _ _ .root)
  refine ⟨hlisted, listed_of_built rfl (hlisted.built hbuilt) ?_ (hnone _ _ (.firstNames hlast))⟩
  rw [names_canon]
  exact mem_keys_firstNames hr hc

theorem noneMissed_of_buildsComplete (hm : 1 ≤ maxTopN) (hb : PlainLetters lookup city maxTopN)
    (h : BuildsComplete lookup city maxTopN) : NoneMissed lookup city maxTopN := by
  rintro k x hk ⟨hfirst, hown⟩
  obtain ⟨depth, hdepth⟩ := h (lastServer x) {} Directory.wf_empty
  obtain ⟨d, hd, hcomplete⟩ := hdepth (max depth 103) (le_max_left _ _)
  obtain ⟨d', hd', hbuilt⟩ := spGpdBuild_built (lastServer x) hm hb Directory.wf_empty
    (le_max_right depth 103)
  obtain rfl : d = d' := Option.some.inj (hd.symm.trans hd')
  obtain ⟨s, hs, rfl⟩ := mem_groupKeys.1 hfirst.1
  have hs := (mem_stemNames.1 hs).1
  cases hk with
  | root =>
    obtain ⟨r, hr, rfl⟩ := mem_map.1 hs
    obtain ⟨hr, hc⟩ := mem_filter.1 hr
    have hlisted := (hcomplete r hr (by simpa using hc)).1
    exact not_listed_of_mayMiss (k := Key.root) rfl hbuilt hfirst hown hlisted
  | firstNames hL =>
    obtain ⟨q, -, rfl⟩ := mem_groupKeys.1 hL
    obtain ⟨r, hr, rfl⟩ := mem_map.1 hs
    obtain ⟨hr, hc⟩ := mem_filter.1 hr
    simp only [Bool.and_eq_true, decide_eq_true_eq, textEq_iff, Key.firstNames,
      collate_collate] at hc
    obtain ⟨hlast, hlisted⟩ := hcomplete r hr hc.1
    have hkey : (Key.firstNames r.lastName).canon = Key.firstNames (collate q.1) := by
      rw [Key.canon_firstNames, hc.2]
    have hbuilt' := hlast.built hbuilt
    rw [← hkey] at hfirst hown
    exact not_listed_of_mayMiss rfl hbuilt' hfirst hown hlisted

theorem plainLetters_of_plain
    (h : ∀ r ∈ lookup, PlainStem r.lastName ∧ PlainStem r.firstName) :
    PlainLetters lookup city maxTopN := by
  intro k x c _ hx hp
  obtain ⟨s, hs, rfl⟩ := mem_groupKeys.1 hx.1
  have hplain : PlainStem s.1 := by
    rcases k with ⟨l, _ | f⟩
    · obtain ⟨r, hr, rfl⟩ := mem_map.1 (mem_stemNames.1 hs).1
      exact (h r (mem_of_mem_filter hr)).1
    · obtain ⟨r, hr, rfl⟩ := mem_map.1 (mem_stemNames.1 hs).1
      exact (h r (mem_of_mem_filter hr)).2
  rw [hplain.collate] at hp
  obtain ⟨e, he, rfl⟩ := mem_map.1 (hp.subset (by simp : c ∈ k.stem ++ [c]))
  exact hplain e he

theorem noneMissed_of_length (h : lookup.length < 50) (hm : 50 ≤ maxTopN) :
    NoneMissed lookup city maxTopN := by
  rintro k x - ⟨hfirst, -⟩
  have hrows : (stemNames lookup city k).length ≤ lookup.length := by
    refine (length_filter_le _ _).trans ?_
    rcases k with ⟨l, _ | f⟩
    · exact (length_map _).trans_le (length_filter_le _ _)
    · exact (length_map _).trans_le (length_filter_le _ _)
  have hlimit : 50 ≤ limit maxTopN k := by
    unfold limit
    split_ifs
    · exact hm
    · exact le_rfl
  have hmiss := hfirst.2.le_length
  omega

/-- If every letter that may have to be followed is plain, a build is complete exactly if no name
may be missed both at the first node of its kind and at the node of its own stem. -/
theorem complete_iff (lookup : List CityRow) (city : City) (maxTopN : ℕ) (hm : 1 ≤ maxTopN)
    (hb : PlainLetters lookup city maxTopN) :
    BuildsComplete lookup city maxTopN ↔ NoneMissed lookup city maxTopN :=
  ⟨noneMissed_of_buildsComplete hm hb, buildsComplete_of_noneMissed hm hb⟩

def smallville : City := ⟨20, 1⟩

/-- Two persons share a last name, a third one has another. -/
def threePersons : List CityRow :=
  [⟨smallville, ['S', 'm', 'i', 't', 'h'], ['J', 'o', 'h', 'n'], 3, by decide, by decide⟩,
    ⟨smallville, ['S', 'm', 'i', 't', 'h'], ['A', 'n', 'n'], 2, by decide, by decide⟩,
    ⟨smallville, ['S', 'm', 'y', 't', 'h'], ['J', 'o', 'h', 'n'], 1, by decide, by decide⟩]

theorem johnSmith_complete : BuildsComplete threePersons smallville 50 := by
  refine (complete_iff _ _ _ (by decide) (plainLetters_of_plain ?_)).2
    (noneMissed_of_length (by decide) le_rfl)
  decide

/-- Fifty last names that start with `A`, two persons each, and one person called `A`. -/
def crowded : List CityRow :=
  ⟨smallville, ['A'], ['X'], 1, by decide, by decide⟩ :: (List.range 50).map fun i =>
    ⟨smallville, ['A', Char.ofNat (97 + i / 10), Char.ofNat (97 + i % 10)], ['X'], 2,
      by simp, by simp⟩

theorem crowded_incomplete : ¬BuildsComplete crowded smallville 50 := by
  intro h
  have hplain : ∀ r ∈ crowded, PlainStem r.lastName ∧ PlainStem r.firstName := by
    decide +kernel
  refine noneMissed_of_buildsComplete (by decide) (plainLetters_of_plain hplain) h Key.root ['a']
    .root ?_
  unfold MayMiss
  decide +kernel

end Exact

end AciX.Gpd
