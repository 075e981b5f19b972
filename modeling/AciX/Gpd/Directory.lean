import AciX.Search.Names
import AciX.Sql.Case

/-!
# The tables of the directory

A node stands for the last names of a city that start with a stem, or for the first names of one
last name that do. It lists the most frequent of them and the letters that lead on to the others.
The index tells nodes apart as the collation does, so the tables hold one `content` for each
`Key.canon` (`content_fillNode`).
-/

namespace AciX.Gpd

open List Sql

structure City where
  stateFips : ℕ
  cityFips : ℤ
  deriving DecidableEq

structure Key where
  lastName : Text
  firstName : Option Text
  deriving DecidableEq

namespace Key

def canon (k : Key) : Key := ⟨collate k.lastName, k.firstName.map collate⟩

/-- `LastName=@LastName AND FirstName IS NULL`, or `LastName=@LastName AND FirstName=@FirstName`. -/
def isAt (k node : Key) : Bool :=
  textEq node.lastName k.lastName &&
    match k.firstName with
    | none => node.firstName.isNone
    | some f => node.firstName.any (textEq · f)

theorem isAt_iff {k node : Key} : k.isAt node = true ↔ node.canon = k.canon := by
  rcases k with ⟨l, _ | f⟩ <;> rcases node with ⟨l', _ | f'⟩ <;> simp [isAt, canon, textEq_iff]

end Key

structure NodeRow where
  id : ℤ
  city : City
  key : Key

structure TopNRow where
  nodeID : ℤ
  name : Text
  personCount : ℤ

structure NextLetterRow where
  nodeID : ℤ
  nextLetter : Text
  personCount : ℤ

structure Directory where
  nodes : List NodeRow := []
  topN : List TopNRow := []
  nextLetters : List NextLetterRow := []
  nextID : ℤ := 1

structure Content where
  top : List (Text × ℤ)
  letters : List (Text × ℤ)

namespace Directory

variable (d : Directory) (city : City) (k : Key)

def findNode : Option ℤ :=
  (selectLast (fun n => n.city = city && k.isAt n.key) d.nodes).map (·.id)

def topNOf (id : ℤ) : List (Text × ℤ) :=
  (d.topN.filter (·.nodeID = id)).map fun r => (r.name, r.personCount)

def lettersOf (id : ℤ) : List (Text × ℤ) :=
  (d.nextLetters.filter (·.nodeID = id)).map fun r => (r.nextLetter, r.personCount)

def content : Option Content :=
  (d.findNode city k).map fun id => ⟨d.topNOf id, d.lettersOf id⟩

def openNode : Directory × ℤ :=
  match d.findNode city k with
  | some id => ({ d with
      topN := d.topN.filter (·.nodeID ≠ id)
      nextLetters := d.nextLetters.filter (·.nodeID ≠ id) }, id)
  | none => ({ d with
      nodes := d.nodes ++ [⟨d.nextID, city, k⟩]
      nextID := d.nextID + 1 }, d.nextID)

def insertTopN (id : ℤ) (rows : List (Text × ℤ)) : Directory :=
  { d with topN := d.topN ++ rows.map fun r => ⟨id, r.1, r.2⟩ }

def insertLetters (id : ℤ) (rows : List (Text × ℤ)) : Directory :=
  { d with nextLetters := d.nextLetters ++ rows.map fun r => ⟨id, r.1, r.2⟩ }

structure Wf : Prop where
  ids : Sql.Unique NodeRow.id d.nodes
  keys : Sql.Unique (fun n => (n.city, n.key.canon)) d.nodes
  nodes_lt : ∀ n ∈ d.nodes, n.id < d.nextID
  topN_lt : ∀ r ∈ d.topN, r.nodeID < d.nextID
  letters_lt : ∀ r ∈ d.nextLetters, r.nodeID < d.nextID

theorem wf_empty : Wf {} := by
  refine ⟨nodup_nil, nodup_nil, ?_, ?_, ?_⟩ <;> simp

variable {d city k} {id : ℤ}

theorem Wf.findNode_eq_some (h : d.Wf) : d.findNode city k = some id ↔
    ∃ n ∈ d.nodes, n.id = id ∧ n.city = city ∧ n.key.canon = k.canon := by
  have hp : ∀ n : NodeRow, (n.city = city && k.isAt n.key) = true ↔
      n.city = city ∧ n.key.canon = k.canon := by
    intro n
    rw [Bool.and_eq_true, decide_eq_true_eq, Key.isAt_iff]
  unfold findNode
  rw [Option.map_eq_some_iff]
  constructor
  · rintro ⟨n, hn, hi⟩
    obtain ⟨hmem, hn⟩ := selectLast_mem hn
    exact ⟨n, hmem, hi, (hp n).1 hn⟩
  · rintro ⟨n, hn, hi, hc, hk⟩
    obtain ⟨m, hm⟩ := selectLast_isSome
      (p := fun n => n.city = city && k.isAt n.key) hn ((hp n).2 ⟨hc, hk⟩)
    obtain ⟨hmem, hm'⟩ := selectLast_mem hm
    obtain ⟨hmc, hmk⟩ := (hp m).1 hm'
    have hmn : m = n := h.keys.eq hmem hn (by rw [hc, hk, hmc, hmk])
    exact ⟨m, hm, hmn ▸ hi⟩

theorem findNode_eq_none : d.findNode city k = none ↔
    ∀ n ∈ d.nodes, n.city = city → n.key.canon ≠ k.canon := by
  unfold findNode
  rw [Option.map_eq_none_iff, selectLast_none]
  refine forall₂_congr fun n _ => ?_
  by_cases hc : n.city = city
  · simp [hc, ← Key.isAt_iff]
  · simp [hc]

theorem content_congr {k' : Key} (h : k.canon = k'.canon) :
    d.content city k = d.content city k' := by
  have hat : k.isAt = k'.isAt := by
    funext node
    rw [Bool.eq_iff_iff, Key.isAt_iff, Key.isAt_iff, h]
  unfold content findNode
  rw [hat]

section

variable (h : d.Wf)
include h

theorem Wf.findNode_lt (hid : d.findNode city k = some id) : id < d.nextID := by
  obtain ⟨n, hn, rfl, -⟩ := h.findNode_eq_some.1 hid
  exact h.nodes_lt n hn

theorem Wf.openNode (city : City) (k : Key) : (d.openNode city k).1.Wf := by
  unfold Directory.openNode
  rcases hf : d.findNode city k with _ | id
  · have hnot := findNode_eq_none.1 hf
    refine ⟨?_, ?_, ?_, ?_, ?_⟩
    · simp only [Sql.Unique, map_append, nodup_append]
      refine ⟨h.ids, by simp, ?_⟩
      simp only [mem_map, map_cons, map_nil, mem_singleton]
      rintro i ⟨n, hn, rfl⟩ j rfl
      exact (h.nodes_lt n hn).ne
    · simp only [Sql.Unique, map_append, nodup_append]
      refine ⟨h.keys, by simp, ?_⟩
      simp only [mem_map, map_cons, map_nil, mem_singleton]
      rintro i ⟨n, hn, rfl⟩ j rfl heq
      obtain ⟨hc, hk⟩ := Prod.mk.inj heq
      exact hnot n hn hc hk
    · intro n hn
      rcases mem_append.1 hn with hn | hn
      · exact (h.nodes_lt n hn).trans (lt_add_one _)
      · rw [mem_singleton.1 hn]
        exact lt_add_one _
    · exact fun r hr => (h.topN_lt r hr).trans (lt_add_one _)
    · exact fun r hr => (h.letters_lt r hr).trans (lt_add_one _)
  · exact ⟨h.ids, h.keys, h.nodes_lt, fun r hr => h.topN_lt r (mem_of_mem_filter hr),
      fun r hr => h.letters_lt r (mem_of_mem_filter hr)⟩

theorem Wf.openNode_new (city : City) (k : Key) :
    (d.openNode city k).1.findNode city k = some (d.openNode city k).2 ∧
      (d.openNode city k).1.topNOf (d.openNode city k).2 = [] ∧
      (d.openNode city k).1.lettersOf (d.openNode city k).2 = [] := by
  have hwf := h.openNode city k
  refine ⟨hwf.findNode_eq_some.2 ?_, ?_⟩
  · unfold Directory.openNode
    rcases hf : d.findNode city k with _ | id
    · exact ⟨⟨d.nextID, city, k⟩, by simp, rfl, rfl, rfl⟩
    · exact h.findNode_eq_some.1 hf
  · unfold Directory.openNode topNOf lettersOf
    rcases hf : d.findNode city k with _ | id
    · have htop : d.topN.filter (·.nodeID = d.nextID) = [] := by
        rw [filter_eq_nil_iff]
        intro r hr
        simpa using (h.topN_lt r hr).ne
      have hletters : d.nextLetters.filter (·.nodeID = d.nextID) = [] := by
        rw [filter_eq_nil_iff]
        intro r hr
        simpa using (h.letters_lt r hr).ne
      simp [htop, hletters]
    · simp [filter_filter]

theorem Wf.openNode_other (city : City) {k' : Key} (hk : k'.canon ≠ k.canon) :
    (d.openNode city k).1.findNode city k' = d.findNode city k' ∧
      ∀ id, d.findNode city k' = some id → id ≠ (d.openNode city k).2 ∧
        (d.openNode city k).1.topNOf id = d.topNOf id ∧
        (d.openNode city k).1.lettersOf id = d.lettersOf id := by
  unfold Directory.openNode
  rcases hf : d.findNode city k with _ | i
  · refine ⟨?_, fun id hid => ⟨(h.findNode_lt hid).ne, rfl, rfl⟩⟩
    have hat : k'.isAt k = false := by
      rw [Bool.eq_false_iff, ne_eq, Key.isAt_iff]
      exact hk.symm
    simp [findNode, selectLast, filter_append, hat]
  · refine ⟨rfl, fun id hid => ?_⟩
    have hne : id ≠ i := by
      rintro rfl
      obtain ⟨n, hn, hi, -, hnk⟩ := h.findNode_eq_some.1 hid
      obtain ⟨m, hm, hi', -, hmk⟩ := h.findNode_eq_some.1 hf
      obtain rfl := h.ids.eq hn hm (hi.trans hi'.symm)
      exact hk (hnk.symm.trans hmk)
    refine ⟨hne, ?_, ?_⟩
    · unfold topNOf
      rw [filter_filter]
      congr 1
      refine filter_congr fun r _ => ?_
      by_cases hr : r.nodeID = id <;> simp [hr, hne]
    · unfold lettersOf
      rw [filter_filter]
      congr 1
      refine filter_congr fun r _ => ?_
      by_cases hr : r.nodeID = id <;> simp [hr, hne]

theorem Wf.insertTopN (rows : List (Text × ℤ)) (hid : id < d.nextID) :
    (d.insertTopN id rows).Wf := by
  refine ⟨h.ids, h.keys, h.nodes_lt, fun r hr => ?_, h.letters_lt⟩
  rcases mem_append.1 hr with hr | hr
  · exact h.topN_lt r hr
  · obtain ⟨_, _, rfl⟩ := mem_map.1 hr
    exact hid

theorem Wf.insertLetters (rows : List (Text × ℤ)) (hid : id < d.nextID) :
    (d.insertLetters id rows).Wf := by
  refine ⟨h.ids, h.keys, h.nodes_lt, h.topN_lt, fun r hr => ?_⟩
  rcases mem_append.1 hr with hr | hr
  · exact h.letters_lt r hr
  · obtain ⟨_, _, rfl⟩ := mem_map.1 hr
    exact hid

end

theorem topNOf_insertTopN (d : Directory) (id : ℤ) (rows : List (Text × ℤ)) (i : ℤ) :
    (d.insertTopN id rows).topNOf i =
      d.topNOf i ++ if i = id then rows else [] := by
  unfold topNOf Directory.insertTopN
  rw [filter_append, map_append]
  split_ifs with h
  · subst h
    simp [filter_map, Function.comp_def]
  · simp [filter_map, Function.comp_def, Ne.symm h]

theorem lettersOf_insertLetters (d : Directory) (id : ℤ) (rows : List (Text × ℤ)) (i : ℤ) :
    (d.insertLetters id rows).lettersOf i =
      d.lettersOf i ++ if i = id then rows else [] := by
  unfold lettersOf Directory.insertLetters
  rw [filter_append, map_append]
  split_ifs with h
  · subst h
    simp [filter_map, Function.comp_def]
  · simp [filter_map, Function.comp_def, Ne.symm h]

def fillNode (d : Directory) (city : City) (k : Key) (c : Content) : Directory :=
  ((d.openNode city k).1.insertTopN (d.openNode city k).2 c.top).insertLetters
    (d.openNode city k).2 c.letters

theorem Wf.fillNode (h : d.Wf) (c : Content) : (d.fillNode city k c).Wf := by
  have hid := (h.openNode city k).findNode_lt (h.openNode_new city k).1
  exact ((h.openNode city k).insertTopN c.top hid).insertLetters c.letters hid

theorem content_fillNode (h : d.Wf) (c : Content) :
    (d.fillNode city k c).content city k = some c := by
  obtain ⟨hfind, htop, hletters⟩ := h.openNode_new city k
  have hfind' : (d.fillNode city k c).findNode city k = some (d.openNode city k).2 := hfind
  have htop' : (d.fillNode city k c).topNOf (d.openNode city k).2 = c.top := by
    have := topNOf_insertTopN (d.openNode city k).1 (d.openNode city k).2 c.top
      (d.openNode city k).2
    rwa [htop, if_pos rfl, nil_append] at this
  have hletters' : (d.fillNode city k c).lettersOf (d.openNode city k).2 = c.letters := by
    unfold Directory.fillNode
    rw [lettersOf_insertLetters, if_pos rfl]
    exact (congrArg (· ++ c.letters) hletters).trans (nil_append _)
  rw [content, hfind', Option.map_some, htop', hletters']

theorem content_fillNode_other (h : d.Wf) (c : Content) {k' : Key} (hk : k'.canon ≠ k.canon) :
    (d.fillNode city k c).content city k' = d.content city k' := by
  obtain ⟨hfind, hother⟩ := h.openNode_other city hk
  have hfind' : (d.fillNode city k c).findNode city k' = d.findNode city k' := hfind
  unfold content
  rw [hfind']
  rcases hid : d.findNode city k' with _ | id
  · rfl
  · obtain ⟨hne, htop, hletters⟩ := hother id hid
    have htop' : (d.fillNode city k c).topNOf id = d.topNOf id := by
      have := topNOf_insertTopN (d.openNode city k).1 (d.openNode city k).2 c.top id
      rwa [htop, if_neg hne, append_nil] at this
    have hletters' : (d.fillNode city k c).lettersOf id = d.lettersOf id := by
      unfold Directory.fillNode
      rw [lettersOf_insertLetters, if_neg hne, append_nil]
      exact hletters
    rw [Option.map_some, Option.map_some, htop', hletters']

end Directory

end AciX.Gpd
