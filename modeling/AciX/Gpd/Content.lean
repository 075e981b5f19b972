import AciX.Gpd.Node

/-!
# What the names of a city determine

The rows of `CityLookup` determine what the node of a key holds, up to the order in which they are
read and the order of names with as many persons. A call of `spGpdBuild` writes such content
(`determined_build`), and a node that is missing may be given any of it (`exists_server`).
-/

namespace AciX.Gpd

open List Sql

def lettersFrom (rows : List (Text × ℤ)) (k : Key) (listed : List (Text × ℤ)) : List (Text × ℤ) :=
  (groupBy collate ((rows.filter fun r =>
      startsWith k.stem r.1 && len k.stem < len r.1 &&
        !listed.any fun t => textEq t.1 r.1).map
    fun r => (Sql.letterAt r.1 (len k.stem + 1), r.2))).map fun g => (char 1 g.1, g.2)

section Determined

variable (lookup : List CityRow) (city : City)

/-- The node lists the names that start with its stem, most frequent first and no more than it may,
and the letters that lead on to the names left over, all with their numbers of persons. -/
structure Determined (maxTopN : ℕ) (k : Key) (c : Content) : Prop where
  top : ∃ rows o : List (Text × ℤ), rows.Perm (names lookup city k) ∧
    o.Perm (groupBy collate (rows.filter fun r => startsWith k.stem r.1)) ∧
    Descending o ∧ c.top = rowcount maxTopN o
  letters : ∃ rows : List (Text × ℤ), rows.Perm (names lookup city k) ∧
    c.letters = lettersFrom rows k c.top

variable {lookup city} {maxTopN : ℕ} {k : Key} {c : Content}

theorem determined_build (server : Server) (d d' : Directory) :
    Determined lookup city maxTopN k ⟨topN server lookup city d k maxTopN,
      nextLetters server lookup city d' k (topN server lookup city d k maxTopN)⟩ where
  top := ⟨_, _, server.scan_perm d _, server.order_perm d _, server.order_desc d _, rfl⟩
  letters := ⟨_, server.scan_perm d' _, rfl⟩

section

variable (h : Determined lookup city maxTopN k c)
include h

theorem Determined.mem_top {t : Text × ℤ}
    (ht : t ∈ c.top) : ∃ r ∈ names lookup city k, r.1 = t.1 := by
  obtain ⟨rows, o, hrows, ho, -, htop⟩ := h.top
  have hmem : t ∈ o := by
    rw [htop, rowcount] at ht
    split_ifs at ht
    · exact ht
    · exact mem_of_mem_take ht
  obtain ⟨⟨r, hr, hrt⟩, -⟩ := mem_groupBy (ho.mem_iff.1 hmem)
  exact ⟨r, hrows.mem_iff.1 (mem_of_mem_filter hr), hrt⟩

theorem Determined.length_top_le {t : Text × ℤ} (ht : t ∈ c.top) : t.1.length ≤ 50 := by
  obtain ⟨r, hr, hrt⟩ := h.mem_top ht
  exact hrt ▸ length_le_of_mem_names lookup city hr

theorem Determined.mem_letters {g : Text × ℤ} (hg : g ∈ c.letters) :
    g.1.length = 1 ∧ len k.stem < 50 := by
  obtain ⟨rows, hrows, hletters⟩ := h.letters
  rw [hletters] at hg
  obtain ⟨g, hgroup, rfl⟩ := mem_map.1 hg
  obtain ⟨⟨s, hs, -⟩, -⟩ := mem_groupBy hgroup
  obtain ⟨r, hr, rfl⟩ := mem_map.1 hs
  obtain ⟨hr, hcond⟩ := mem_filter.1 hr
  simp only [Bool.and_eq_true, decide_eq_true_eq] at hcond
  have hle := length_le_of_mem_names lookup city (hrows.mem_iff.1 hr)
  have htrim : len r.1 ≤ r.1.length := (List.rdropWhile_prefix _ _).length_le
  exact ⟨length_char 1 _, by omega⟩

theorem Determined.congr {k' : Key}
    (hnames : names lookup city k' = names lookup city k) (hstem : k'.stem = k.stem) :
    Determined lookup city maxTopN k' c := by
  obtain ⟨⟨rows, o, hrows, ho, hdesc, htop⟩, rows', hrows', hletters⟩ := h
  rw [← hnames] at hrows hrows'
  rw [← hstem] at ho
  refine ⟨⟨rows, o, hrows, ho, hdesc, htop⟩, rows', hrows', ?_⟩
  rw [hletters, lettersFrom, lettersFrom, hstem]

end

end Determined

section Once

variable {lookup : List CityRow} {city : City} {d : Directory} {k : Key}

theorem buildNode_once (server : Server) (lookup : List CityRow) (city : City) (h : d.Wf)
    {key : Key} (hv : key.varchar = k) (n : ℕ) :
    (buildNode server lookup city { key := key, maxTopN := n, recurse := false } d).1 =
      d.fillNode city k ⟨topN server lookup city d k n, nextLetters server lookup city
        ((d.openNode city k).1.insertTopN (d.openNode city k).2 (topN server lookup city d k n)) k
        (topN server lookup city d k n)⟩ := by
  obtain ⟨-, hnil, -⟩ := h.openNode_new city k
  have hlisted : ((d.openNode city k).1.insertTopN (d.openNode city k).2
      (topN server lookup city d k n)).topNOf (d.openNode city k).2 =
      topN server lookup city d k n := by
    rw [Directory.topNOf_insertTopN, hnil, if_pos rfl, nil_append]
  simp only [buildNode, hv, hlisted, Bool.false_eq_true, if_false]
  rfl

open scoped Classical in
/-- A server that reads the rows of one query in a given order, one order before a node is there and
another one afterwards. -/
noncomputable def givenServer (base : List (Text × ℤ)) (n : ℕ) (rows rows' o : List (Text × ℤ))
    (h : rows.Perm base) (h' : rows'.Perm base) (ho : Descending o) : Server where
  scan d l := if l = base then if d.nodes.length = n then rows else rows' else l
  order _ l := if o.Perm l then o else lastOrder collate [] l
  sequence _ l := l
  scan_perm d l := by
    split_ifs with hl
    · exact hl ▸ h
    · exact hl ▸ h'
    · exact .refl _
  order_perm _ l := by
    split_ifs with hl
    · exact hl
    · exact lastOrder_perm _ l
  order_desc _ l := by
    split_ifs with hl
    · exact ho
    · exact descending_lastOrder _ l
  sequence_perm _ _ := .refl _

theorem exists_server (h : d.Wf) (hv : k.varchar = k) (hnone : d.findNode city k = none)
    {c : Content} (hc : Determined lookup city 50 k c) :
    ∃ server, (buildNode server lookup city { key := k, recurse := false } d).1 =
      d.fillNode city k c := by
  obtain ⟨⟨rows, o, hrows, ho, hdesc, htop⟩, rows', hrows', hletters⟩ := hc
  set server := givenServer (names lookup city k) d.nodes.length rows rows' o hrows hrows' hdesc
  have htopN : topN server lookup city d k 50 = c.top := by
    have hscan : server.scan d (names lookup city k) = rows := by
      simp [server, givenServer]
    rw [topN, hscan, htop]
    congr 1
    exact if_pos ho
  have hnodes : ((d.openNode city k).1.insertTopN (d.openNode city k).2 c.top).nodes.length =
      d.nodes.length + 1 := by
    simp [Directory.openNode, hnone, Directory.insertTopN]
  refine ⟨server, ?_⟩
  rw [buildNode_once server lookup city h hv 50, htopN]
  congr 1
  rcases c with ⟨top, letters⟩
  congr 1
  have hscan : server.scan ((d.openNode city k).1.insertTopN (d.openNode city k).2 top)
      (names lookup city k) = rows' := by
    simp [server, givenServer, hnodes]
  have hfrom : ∀ d' listed, nextLetters server lookup city d' k listed =
      lettersFrom (server.scan d' (names lookup city k)) k listed := fun _ _ => rfl
  rw [hfrom, hscan]
  exact hletters.symm

end Once

end AciX.Gpd
