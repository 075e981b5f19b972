import AciX.Agenda
import AciX.Gpd.Complete
import AciX.Gpd.Content

/-!
# Walking the directory of a city

`WalkCity` asks for the node of all last names, and from each node for those of its next letters and
for the first names of the names it lists. `spGpdNodeGet` builds a node if it is missing. It looks a
node up by a comparison that does not count blanks at the end: if a blank is among the letters of a
node, the walk asks for that node again, and again. So the walk ends exactly if no node that it may
ask for may have a blank among its letters (`walk_ends_iff`).
-/

namespace AciX.Gpd

open List Sql

structure Sorting where
  byName : List (Text × ℤ) → List (Text × ℤ)
  byLetter : List (Text × ℤ) → List (Text × ℤ)
  byName_perm : ∀ l, (byName l).Perm l
  byLetter_perm : ∀ l, (byLetter l).Perm l

structure Reply where
  nextLetters : Text
  top100 : List Text

section Model

variable (sorting : Sorting) (server : Server) (lookup : List CityRow) (city : City)

def reply (c : Content) : Reply where
  nextLetters := toLower (Sql.varchar 50 ((sorting.byLetter c.letters).flatMap (·.1)))
  top100 := (sorting.byName c.top).map (·.1)

def spGpdNodeGet (k : Key) (d : Directory) : Directory × Content :=
  let k := k.varchar
  let d := match d.findNode city k with
    | some _ => d
    | none => (buildNode server lookup city { key := k, recurse := false } d).1
  (d, (d.content city k).getD ⟨[], []⟩)

def walkCity (k : Key) (r : Reply) : List Key :=
  r.nextLetters.map (fun e => k.extend [e]) ++
    if k.firstName = none then r.top100.map Key.firstNames else []

end Model

section Walk

variable (sorting : Sorting) (lookup : List CityRow) (city : City)

def Visit (k : Key) (d d' : Directory) (next : List Key) : Prop :=
  ∃ server c, spGpdNodeGet server lookup city k d = (d', c) ∧ next = walkCity k (reply sorting c)

abbrev Walk := Agenda Directory Key

def start (d : Directory) : Walk := ⟨d, [Key.root], []⟩

def Current (d : Directory) : Prop :=
  ∀ k c, d.content city k = some c → Determined lookup city 50 k.canon c

def VisitsNames (w : Walk) : Prop :=
  ∀ k ∈ w.done, k.firstName = none → ∀ c, w.state.content city k.varchar = some c →
    ∀ name ∈ (reply sorting c).top100, Key.firstNames name ∈ w.done

/-- The walk makes finitely many requests, and when it is done it has visited the names. -/
def WalkEnds : Prop :=
  ∀ d : Directory, d.Wf → Current lookup city d →
    Agenda.Ends (Visit sorting lookup city) (start d) ∧
      ∀ w, Relation.ReflTransGen (Agenda.Step (Visit sorting lookup city)) (start d) w →
        w.todo = [] → VisitsNames sorting city w

inductive MayAsk : Key → Prop
  | root : MayAsk Key.root
  | letter {k : Key} {c : Content} {e : Char} (h : MayAsk k)
      (hc : Determined lookup city 50 k c) (he : e ∈ (reply sorting c).nextLetters)
      (hne : e ≠ ' ') : MayAsk (k.extend [e])
  | name {k : Key} {c : Content} {name : Text} (h : MayAsk k) (hk : k.firstName = none)
      (hc : Determined lookup city 50 k c) (hn : name ∈ (reply sorting c).top100) :
      MayAsk (Key.firstNames name)

/-- No answer the walk may come to offers a blank as next letter. -/
def NoBlank : Prop :=
  ∀ k c, MayAsk sorting lookup city k → Determined lookup city 50 k c →
    ' ' ∉ (reply sorting c).nextLetters

end Walk

section Exact

variable {sorting : Sorting} {lookup : List CityRow} {city : City} {k : Key} {c : Content}

/-- A request that reaches the server as it was made, in lower case and without blanks. -/
structure Exact (k : Key) : Prop where
  lastName_le : k.lastName.length ≤ 50
  firstName_le : ∀ f, k.firstName = some f → f.length ≤ 50
  stem : ∀ e ∈ k.stem, e ≠ ' ' ∧ foldChar e = e

theorem Exact.varchar (h : Exact k) : k.varchar = k := varchar_of_le h.lastName_le h.firstName_le

theorem varchar_varchar (k : Key) : k.varchar.varchar = k.varchar := by
  refine varchar_of_le (length_take_le _ _) fun f hf => ?_
  obtain ⟨g, -, rfl⟩ := Option.map_eq_some_iff.1 hf
  exact length_take_le _ _

theorem Exact.collate_stem (h : Exact k) : collate k.stem = k.stem := by
  rw [collate, rtrim_of_notMem fun e he => (h.stem e he).1]
  exact (map_congr_left fun e he => (h.stem e he).2).trans (map_id _)

theorem Exact.stem_canon (h : Exact k) : k.canon.stem = k.stem := by
  rw [Key.stem_canon, h.collate_stem]

theorem Exact.len_stem (h : Exact k) : len k.stem = k.stem.length := by
  rw [← length_collate, h.collate_stem]

theorem Exact.determined_canon (h : Exact k) :
    Determined lookup city 50 k.canon c ↔ Determined lookup city 50 k c :=
  ⟨fun hc => hc.congr (names_canon lookup city k).symm h.stem_canon.symm,
    fun hc => hc.congr (names_canon lookup city k) h.stem_canon⟩

theorem mem_nextLetters_reply {e : Char} (h : e ∈ (reply sorting c).nextLetters) :
    ∃ g ∈ c.letters, ∃ e' ∈ g.1, e = foldChar e' := by
  obtain ⟨e', he', rfl⟩ := mem_map.1 h
  obtain ⟨g, hg, he'⟩ := mem_flatMap.1 (mem_of_mem_take he')
  exact ⟨g, (sorting.byLetter_perm _).mem_iff.1 hg, e', he', rfl⟩

theorem mem_top100_reply {name : Text} (h : name ∈ (reply sorting c).top100) :
    ∃ t ∈ c.top, t.1 = name := by
  obtain ⟨t, ht, rfl⟩ := mem_map.1 h
  exact ⟨t, (sorting.byName_perm _).mem_iff.1 ht, rfl⟩

theorem Exact.extend (h : Exact k) (hc : Determined lookup city 50 k c) {e : Char}
    (he : e ∈ (reply sorting c).nextLetters) (hne : e ≠ ' ') :
    Exact (k.extend [e]) ∧ k.stem.length < 50 := by
  obtain ⟨g, hg, e', -, rfl⟩ := mem_nextLetters_reply he
  obtain ⟨-, hlt⟩ := hc.mem_letters hg
  rw [h.len_stem] at hlt
  have hstem : ∀ a ∈ k.stem ++ [foldChar e'], a ≠ ' ' ∧ foldChar a = a := by
    intro a ha
    rcases mem_append.1 ha with ha | ha
    · exact h.stem a ha
    · rw [mem_singleton.1 ha]
      exact ⟨hne, foldChar_foldChar e'⟩
  obtain ⟨hle, hle'⟩ := extend_le (foldChar e') h.lastName_le hlt
  exact ⟨⟨hle, hle', Key.stem_extend k _ ▸ hstem⟩, hlt⟩

theorem exact_firstNames (hc : Determined lookup city 50 k c) {name : Text}
    (hn : name ∈ (reply sorting c).top100) : Exact (Key.firstNames name) := by
  obtain ⟨t, ht, rfl⟩ := mem_top100_reply hn
  exact ⟨hc.length_top_le ht, by simp [Key.firstNames], by simp [Key.stem, Key.firstNames]⟩

theorem exact_root : Exact Key.root := by
  refine ⟨Nat.zero_le _, by simp [Key.root], by simp [Key.root, Key.stem]⟩

theorem MayAsk.exact (h : MayAsk sorting lookup city k) : Exact k := by
  induction h with
  | root => exact exact_root
  | letter _ hc he hne ih => exact (ih.extend hc he hne).1
  | name _ _ hc hn _ => exact exact_firstNames hc hn

end Exact

section Get

variable {sorting : Sorting} {lookup : List CityRow} {city : City} {k : Key} {d : Directory}
  {c : Content} (server : Server)

theorem spGpdNodeGet_of_some
    (h : d.content city k.varchar = some c) : spGpdNodeGet server lookup city k d = (d, c) := by
  obtain ⟨id, hid, -⟩ := Option.map_eq_some_iff.1 h
  simp only [spGpdNodeGet, hid, h, Option.getD_some]

theorem spGpdNodeGet_of_none (lookup : List CityRow) (hwf : d.Wf)
    (h : d.content city k.varchar = none) : ∃ c, Determined lookup city 50 k.varchar c ∧
      spGpdNodeGet server lookup city k d = (d.fillNode city k.varchar c, c) := by
  have hnone : d.findNode city k.varchar = none := Option.map_eq_none_iff.1 h
  obtain ⟨c, hc, hbuild⟩ : ∃ c, Determined lookup city 50 k.varchar c ∧
      (buildNode server lookup city { key := k.varchar, recurse := false } d).1 =
        d.fillNode city k.varchar c := by
    refine ⟨_, ?_, buildNode_once server lookup city hwf (varchar_varchar k) 50⟩
    exact determined_build server d _
  refine ⟨c, hc, ?_⟩
  simp only [spGpdNodeGet, hnone, hbuild, Directory.content_fillNode hwf, Option.getD_some]

theorem spGpdNodeGet_spec (hwf : d.Wf) (k : Key) {d' : Directory}
    (h : spGpdNodeGet server lookup city k d = (d', c)) :
    d'.Wf ∧ d'.content city k.varchar = some c ∧
      ∀ k' c', d.content city k' = some c' → d'.content city k' = some c' := by
  rcases hc : d.content city k.varchar with _ | c₀
  · obtain ⟨c₁, -, heq⟩ := spGpdNodeGet_of_none server lookup hwf hc
    obtain ⟨rfl, rfl⟩ := Prod.mk.inj (h.symm.trans heq)
    refine ⟨hwf.fillNode c, Directory.content_fillNode hwf c, fun k' c' hk' => ?_⟩
    rw [Directory.content_fillNode_other hwf c, hk']
    intro hcanon
    rw [Directory.content_congr hcanon, hc] at hk'
    cases hk'
  · obtain ⟨rfl, rfl⟩ := Prod.mk.inj (h.symm.trans (spGpdNodeGet_of_some server hc))
    exact ⟨hwf, hc, fun _ _ h => h⟩

theorem current_fillNode (hwf : d.Wf) (h : Current lookup city d) (hk : Exact k)
    (hc : Determined lookup city 50 k c) : Current lookup city (d.fillNode city k c) := by
  intro k' c' hk'
  by_cases hcanon : k'.canon = k.canon
  · rw [Directory.content_congr hcanon, Directory.content_fillNode hwf, Option.some.injEq] at hk'
    rw [hcanon, ← hk']
    exact hk.determined_canon.2 hc
  · rw [Directory.content_fillNode_other hwf c hcanon] at hk'
    exact h k' c' hk'

theorem current_spGpdNodeGet (hwf : d.Wf) (hcur : Current lookup city d)
    (hk : Exact k) {d' : Directory} (h : spGpdNodeGet server lookup city k d = (d', c)) :
    Current lookup city d' ∧ Determined lookup city 50 k c := by
  have hcur' : Current lookup city d' := by
    rcases hc : d.content city k.varchar with _ | c₀
    · obtain ⟨c₁, hc₁, heq⟩ := spGpdNodeGet_of_none server lookup hwf hc
      obtain ⟨rfl, rfl⟩ := Prod.mk.inj (h.symm.trans heq)
      rw [hk.varchar] at hc₁ ⊢
      exact current_fillNode hwf hcur hk hc₁
    · obtain ⟨rfl, rfl⟩ := Prod.mk.inj (h.symm.trans (spGpdNodeGet_of_some server hc))
      exact hcur
  obtain ⟨-, hc, -⟩ := spGpdNodeGet_spec server hwf k h
  rw [hk.varchar] at hc
  exact ⟨hcur', hk.determined_canon.1 (hcur' k c hc)⟩

end Get

section Visited

variable {sorting : Sorting} {lookup : List CityRow} {city : City}

theorem mem_walkCity {k j : Key} {r : Reply} : j ∈ walkCity k r ↔
    (∃ e ∈ r.nextLetters, j = k.extend [e]) ∨
      k.firstName = none ∧ ∃ name ∈ r.top100, j = Key.firstNames name := by
  unfold walkCity
  rw [mem_append]
  refine or_congr ?_ ?_
  · simp [eq_comm]
  · split_ifs with hk <;> simp [hk, eq_comm]

variable (sorting city) in
/-- The nodes that were asked for are there, and the names they list were asked for or will be. -/
structure Visiting (w : Walk) : Prop where
  wf : w.state.Wf
  asked : ∀ k ∈ w.done, ∃ c, w.state.content city k.varchar = some c ∧
    (k.firstName = none → ∀ name ∈ (reply sorting c).top100,
      Key.firstNames name ∈ w.done ∨ Key.firstNames name ∈ w.todo)

theorem visiting_step {w w' : Walk} (h : Visiting sorting city w)
    (hstep : Agenda.Step (Visit sorting lookup city) w w') : Visiting sorting city w' := by
  cases hstep with
  | mk hvisit =>
    obtain ⟨server, c, hget, rfl⟩ := hvisit
    obtain ⟨hwf, hc, hother⟩ := spGpdNodeGet_spec server h.wf _ hget
    refine ⟨hwf, fun k hk => ?_⟩
    rcases mem_cons.1 hk with rfl | hk
    · refine ⟨c, hc, fun hfirst name hn => .inr (mem_append_left _ ?_)⟩
      exact mem_walkCity.2 (.inr ⟨hfirst, name, hn, rfl⟩)
    · obtain ⟨c', hc', hnames⟩ := h.asked k hk
      refine ⟨c', hother _ _ hc', fun hfirst name hn => ?_⟩
      rcases hnames hfirst name hn with hdone | htodo
      · exact .inl (mem_cons_of_mem _ hdone)
      · rcases mem_cons.1 htodo with heq | htodo
        · exact .inl (heq ▸ mem_cons_self)
        · exact .inr (mem_append_right _ htodo)

theorem visitsNames_of_reached {d : Directory} (hwf : d.Wf) {w : Walk}
    (h : Relation.ReflTransGen (Agenda.Step (Visit sorting lookup city)) (start d) w)
    (htodo : w.todo = []) : VisitsNames sorting city w := by
  have hvisiting : Visiting sorting city w :=
    Agenda.reached_inv (fun _ _ => visiting_step) h ⟨hwf, by simp [start]⟩
  intro k hk hfirst c hc name hn
  obtain ⟨c', hc', hnames⟩ := hvisiting.asked k hk
  obtain rfl : c = c' := Option.some.inj (hc.symm.trans hc')
  rcases hnames hfirst name hn with hdone | hrest
  · exact hdone
  · rw [htodo] at hrest
    cases hrest

end Visited

section Ends

variable {sorting : Sorting} {lookup : List CityRow} {city : City}

theorem ends_of_noBlank (h : NoBlank sorting lookup city) {d : Directory} (hwf : d.Wf)
    (hcur : Current lookup city d) : Agenda.Ends (Visit sorting lookup city) (start d) := by
  refine Agenda.ends_of_rank (MayAsk sorting lookup city)
    (fun d => d.Wf ∧ Current lookup city d) nesting ?_ ⟨hwf, hcur⟩ .root
  rintro k d d' next hk ⟨hwf, hcur⟩ ⟨server, c, hget, rfl⟩
  obtain ⟨hwf', -, -⟩ := spGpdNodeGet_spec server hwf k hget
  obtain ⟨hcur', hc⟩ := current_spGpdNodeGet server hwf hcur hk.exact hget
  refine ⟨⟨hwf', hcur'⟩, fun j hj => ?_⟩
  rcases mem_walkCity.1 hj with ⟨e, he, rfl⟩ | ⟨hfirst, name, hn, rfl⟩
  · have hne : e ≠ ' ' := fun heq => h k c hk hc (heq ▸ he)
    exact ⟨.letter hk hc he hne, nesting_extend e (hk.exact.extend hc he hne).2⟩
  · exact ⟨.name hk hfirst hc hn, nesting_firstNames hk.exact.lastName_le hfirst name⟩

end Ends

section Forever

variable (sorting : Sorting) (lookup : List CityRow) (city : City)

def Doomed (d : Directory) (k : Key) : Prop :=
  ∃ c, d.content city k.varchar = some c ∧ ' ' ∈ (reply sorting c).nextLetters

def LeadsInto (plan : Key → Option Content) (k : Key) (c : Content) : Prop :=
  (∃ e ∈ (reply sorting c).nextLetters, e ≠ ' ' ∧ plan (k.extend [e]) ≠ none) ∨
    (k.firstName = none ∧ ∃ name ∈ (reply sorting c).top100,
      plan (Key.firstNames name).canon ≠ none) ∨
    ' ' ∈ (reply sorting c).nextLetters

/-- Contents for the nodes of some keys that lead from each of them to another one, or to a blank.
-/
def Trap (plan : Key → Option Content) : Prop :=
  ∀ k c, plan k = some c → Exact k ∧ k.canon = k ∧ Determined lookup city 50 k c ∧
    LeadsInto sorting plan k c

variable {sorting lookup city} {k : Key} {plan : Key → Option Content} {c : Content}

theorem canon_varchar_extend (k : Key) : (k.extend [' ']).varchar.canon = k.varchar.canon := by
  have htake : ∀ s : Text, collate (Sql.varchar 50 (s ++ [' '])) = collate (Sql.varchar 50 s) := by
    intro s
    have htake : (s ++ [' ']).take 50 = s.take 50 ++ [' '].take (50 - s.length) := take_append
    have hblank : ∀ e ∈ [' '].take (50 - s.length), e = ' ' := fun e he =>
      mem_singleton.1 (mem_of_mem_take he)
    rw [Sql.varchar, Sql.varchar, collate, collate, htake, rtrim_append_blanks hblank]
  rcases k with ⟨l, _ | f⟩
  · exact congrArg (Key.mk · none) (htake l)
  · exact congrArg (fun t => Key.mk (collate (Sql.varchar 50 l)) (some t)) (htake f)

theorem Doomed.extend {d : Directory} (h : Doomed sorting city d k) :
    Doomed sorting city d (k.extend [' ']) := by
  obtain ⟨c, hc, hblank⟩ := h
  exact ⟨c, (Directory.content_congr (canon_varchar_extend k)).trans hc, hblank⟩

theorem Doomed.mono {d d' : Directory} (h : Doomed sorting city d k)
    (hmono : ∀ k c, d.content city k = some c → d'.content city k = some c) :
    Doomed sorting city d' k := by
  obtain ⟨c, hc, hblank⟩ := h
  exact ⟨c, hmono _ _ hc, hblank⟩

theorem Exact.canon_extend (h : Exact k) {e : Char} (hne : e ≠ ' ')
    (hfold : foldChar e = e) : (k.extend [e]).canon = k.canon.extend [e] := by
  have hcollate : ∀ s : Text, (∀ a ∈ s, a ≠ ' ' ∧ foldChar a = a) →
      collate (s ++ [e]) = collate s ++ [e] := by
    intro s hs
    have hblank : ∀ a ∈ s ++ [e], a ≠ ' ' := by
      intro a ha
      rcases mem_append.1 ha with ha | ha
      · exact (hs a ha).1
      · rwa [mem_singleton.1 ha]
    rw [collate, collate, rtrim_of_notMem hblank,
      rtrim_of_notMem fun a ha => (hs a ha).1, map_append, map_singleton, hfold]
  rcases k with ⟨l, _ | f⟩
  · exact congrArg (Key.mk · none) (hcollate l h.stem)
  · exact congrArg (fun t => Key.mk (collate l) (some t)) (hcollate f h.stem)

theorem foldChar_of_mem_reply {e : Char} (h : e ∈ (reply sorting c).nextLetters) :
    foldChar e = e := by
  obtain ⟨-, -, e', -, rfl⟩ := mem_nextLetters_reply h
  exact foldChar_foldChar e'

theorem Exact.canon (h : Exact k) : Exact k.canon := by
  have hle : ∀ s : Text, (collate s).length ≤ s.length := by
    intro s
    rw [length_collate, len]
    exact (List.rdropWhile_prefix _ _).length_le
  refine ⟨(hle _).trans h.lastName_le, fun f hf => ?_, by rw [h.stem_canon]; exact h.stem⟩
  obtain ⟨g, hg, rfl⟩ := Option.map_eq_some_iff.1 hf
  exact (hle g).trans (h.firstName_le g hg)

theorem LeadsInto.mono {plan plan' : Key → Option Content}
    (h : LeadsInto sorting plan k c) (hmono : ∀ k, plan k ≠ none → plan' k ≠ none) :
    LeadsInto sorting plan' k c := by
  rcases h with ⟨e, he, hne, hplan⟩ | ⟨hfirst, name, hn, hplan⟩ | hblank
  · exact .inl ⟨e, he, hne, hmono _ hplan⟩
  · exact .inr (.inl ⟨hfirst, name, hn, hmono _ hplan⟩)
  · exact .inr (.inr hblank)

theorem Trap.insert (h : Trap sorting lookup city plan) (hk : Exact k) (hcanon : k.canon = k)
    (hc : Determined lookup city 50 k c)
    (hleads : LeadsInto sorting plan k c) :
    ∃ plan', Trap sorting lookup city plan' ∧ plan' k ≠ none := by
  by_cases hplan : plan k = none
  · have hmono : ∀ j, plan j ≠ none → Function.update plan k (some c) j ≠ none := by
      intro j hj
      by_cases hjk : j = k
      · simp [hjk]
      · rwa [Function.update_of_ne hjk]
    refine ⟨Function.update plan k (some c), fun j c' hj => ?_, by simp⟩
    by_cases hjk : j = k
    · subst hjk
      rw [Function.update_self, Option.some.injEq] at hj
      subst hj
      exact ⟨hk, hcanon, hc, hleads.mono hmono⟩
    · rw [Function.update_of_ne hjk] at hj
      obtain ⟨hexact, hself, hdet, hlead⟩ := h j c' hj
      exact ⟨hexact, hself, hdet, LeadsInto.mono hlead hmono⟩
  · exact ⟨plan, h, hplan⟩

theorem MayAsk.trap (h : MayAsk sorting lookup city k) :
    (∃ plan, Trap sorting lookup city plan ∧ plan k.canon ≠ none) →
      ∃ plan, Trap sorting lookup city plan ∧ plan Key.root ≠ none := by
  induction h with
  | root => exact fun h => h
  | letter hask hc he hne ih =>
    rintro ⟨plan, htrap, hplan⟩
    have hk := hask.exact
    rw [hk.canon_extend hne (foldChar_of_mem_reply he)] at hplan
    exact ih (htrap.insert hk.canon (Key.canon_canon _) (hk.determined_canon.2 hc)
      (.inl ⟨_, he, hne, hplan⟩))
  | name hask hfirst hc hn ih =>
    rintro ⟨plan, htrap, hplan⟩
    have hk := hask.exact
    exact ih (htrap.insert hk.canon (Key.canon_canon _) (hk.determined_canon.2 hc)
      (.inr (.inl ⟨Option.map_eq_none_iff.2 hfirst, _, hn, hplan⟩)))

theorem exists_trap (hk : MayAsk sorting lookup city k)
    (hc : Determined lookup city 50 k c) (hblank : ' ' ∈ (reply sorting c).nextLetters) :
    ∃ plan, Trap sorting lookup city plan ∧ plan Key.root ≠ none := by
  have hempty : Trap sorting lookup city fun _ => none := fun _ _ h => by cases h
  exact hk.trap (hempty.insert hk.exact.canon (Key.canon_canon _)
    (hk.exact.determined_canon.2 hc) (.inr (.inr hblank)))

variable (lookup city) in
structure Inside (plan : Key → Option Content) (w : Walk) : Prop where
  current : Current lookup city w.state
  planned : ∀ k c c', plan k = some c → w.state.content city k = some c' → c' = c
  exact : ∀ k ∈ w.todo, Exact k
  tracked : ∃ k ∈ w.todo, plan k.canon ≠ none

theorem exists_answer (htrap : Trap sorting lookup city plan) {d : Directory} (hwf : d.Wf)
    (hplanned : ∀ k c c', plan k = some c → d.content city k = some c' → c' = c) (hk : Exact k) :
    ∃ server d' c, spGpdNodeGet server lookup city k d = (d', c) ∧
      ∀ k c c', plan k = some c → d'.content city k = some c' → c' = c := by
  rcases hcontent : d.content city k.varchar with _ | c
  · obtain ⟨c, hc, hchosen⟩ : ∃ c, Determined lookup city 50 k c ∧
        ∀ c', plan k.canon = some c' → c' = c := by
      rcases hplan : plan k.canon with _ | c
      · exact ⟨_, determined_build (lastServer []) d d, fun _ h => by cases h⟩
      · obtain ⟨-, -, hc, -⟩ := htrap _ _ hplan
        exact ⟨c, hk.determined_canon.1 hc, fun c' h => (Option.some.inj h).symm⟩
    have hnone : d.findNode city k.varchar = none := Option.map_eq_none_iff.1 hcontent
    rw [hk.varchar] at hnone
    obtain ⟨server, hbuild⟩ := exists_server hwf hk.varchar hnone hc
    refine ⟨server, d.fillNode city k c, c, ?_, fun j c₁ c₂ hplan hj => ?_⟩
    · simp only [spGpdNodeGet, hk.varchar, hnone, hbuild, Directory.content_fillNode hwf,
        Option.getD_some]
    · by_cases hcanon : j.canon = k.canon
      · obtain ⟨-, hself, -⟩ := htrap _ _ hplan
        rw [Directory.content_congr hcanon, Directory.content_fillNode hwf, Option.some.injEq] at hj
        rw [← hj, hchosen c₁ (by rw [← hcanon, hself, hplan])]
      · rw [Directory.content_fillNode_other hwf c hcanon] at hj
        exact hplanned j c₁ c₂ hplan hj
  · exact ⟨lastServer [], d, c, spGpdNodeGet_of_some _ hcontent, hplanned⟩

theorem doomed_step {w : Walk} (hwf : w.state.Wf) (h : ∃ k ∈ w.todo, Doomed sorting city w.state k)
    :
    ∃ w', Agenda.Step (Visit sorting lookup city) w w' ∧ w'.state.Wf ∧
      ∃ k ∈ w'.todo, Doomed sorting city w'.state k := by
  obtain ⟨k, hk, hdoomed⟩ := h
  rcases w with ⟨d, _ | ⟨k₀, rest⟩, done⟩
  · cases hk
  rcases hget : spGpdNodeGet (lastServer []) lookup city k₀ d with ⟨d', c⟩
  obtain ⟨hwf', hc, hmono⟩ := spGpdNodeGet_spec _ hwf k₀ hget
  refine ⟨_, .mk ⟨_, c, hget, rfl⟩, hwf', ?_⟩
  have hdoomed' := hdoomed.mono hmono
  rcases mem_cons.1 hk with rfl | hk
  · refine ⟨k.extend [' '], mem_append_left _ (mem_walkCity.2 (.inl ⟨' ', ?_, rfl⟩)),
      hdoomed'.extend⟩
    obtain ⟨c', hc', hblank⟩ := hdoomed'
    obtain rfl : c' = c := Option.some.inj (hc'.symm.trans hc)
    exact hblank
  · exact ⟨k, mem_append_right _ hk, hdoomed'⟩

theorem inside_step (htrap : Trap sorting lookup city plan) {w : Walk}
    (hwf : w.state.Wf) (h : Inside lookup city plan w) :
    ∃ w', Agenda.Step (Visit sorting lookup city) w w' ∧ w'.state.Wf ∧
      ((∃ k ∈ w'.todo, Doomed sorting city w'.state k) ∨ Inside lookup city plan w') := by
  obtain ⟨hcur, hplanned, hexact, k, hk, htracked⟩ := h
  rcases w with ⟨d, _ | ⟨k₀, rest⟩, done⟩
  · cases hk
  have hk₀ : Exact k₀ := hexact k₀ mem_cons_self
  obtain ⟨server, d', c, hget, hplanned'⟩ := exists_answer htrap hwf hplanned hk₀
  obtain ⟨hwf', hc, -⟩ := spGpdNodeGet_spec server hwf k₀ hget
  obtain ⟨hcur', hdet⟩ := current_spGpdNodeGet server hwf hcur hk₀ hget
  refine ⟨_, .mk ⟨server, c, hget, rfl⟩, hwf', ?_⟩
  by_cases hblank : ' ' ∈ (reply sorting c).nextLetters
  · exact .inl ⟨k₀.extend [' '], mem_append_left _ (mem_walkCity.2 (.inl ⟨' ', hblank, rfl⟩)),
      Doomed.extend ⟨c, hc, hblank⟩⟩
  refine .inr ⟨hcur', hplanned', fun j hj => ?_, ?_⟩
  · rcases mem_append.1 hj with hj | hj
    · rcases mem_walkCity.1 hj with ⟨e, he, rfl⟩ | ⟨-, name, hn, rfl⟩
      · exact (hk₀.extend hdet he fun heq => hblank (heq ▸ he)).1
      · exact exact_firstNames hdet hn
    · exact hexact j (mem_cons_of_mem _ hj)
  · rcases mem_cons.1 hk with rfl | hk
    · -- the request of the trap was answered as planned
      obtain ⟨c', hplan⟩ := Option.ne_none_iff_exists'.1 htracked
      rw [hk₀.varchar, ← Directory.content_congr k.canon_canon] at hc
      obtain rfl := hplanned' _ _ _ hplan hc
      obtain ⟨-, -, -, hleads⟩ := htrap _ _ hplan
      rcases hleads with ⟨e, he, hne, hnext⟩ | ⟨hfirst, name, hn, hnext⟩ | hblank'
      · refine ⟨k.extend [e], mem_append_left _ (mem_walkCity.2 (.inl ⟨e, he, rfl⟩)), ?_⟩
        rwa [hk₀.canon_extend hne (foldChar_of_mem_reply he)]
      · refine ⟨Key.firstNames name, mem_append_left _ (mem_walkCity.2 (.inr ⟨?_, name, hn, rfl⟩)),
          hnext⟩
        exact Option.map_eq_none_iff.1 hfirst
      · exact absurd hblank' hblank
    · exact ⟨k, mem_append_right _ hk, htracked⟩

theorem not_ends_of_blank (hk : MayAsk sorting lookup city k)
    (hc : Determined lookup city 50 k c) (hblank : ' ' ∈ (reply sorting c).nextLetters) :
    ¬ Agenda.Ends (Visit sorting lookup city) (start {}) := by
  obtain ⟨plan, htrap, hroot⟩ := exists_trap hk hc hblank
  refine Agenda.not_ends_of_forever (fun w => w.state.Wf ∧
    ((∃ k ∈ w.todo, Doomed sorting city w.state k) ∨ Inside lookup city plan w)) ?_ ?_
  · rintro w ⟨hwf, hdoomed | hinside⟩
    · obtain ⟨w', hstep, hwf', hdoomed'⟩ := doomed_step hwf hdoomed
      exact ⟨w', hstep, hwf', .inl hdoomed'⟩
    · exact inside_step htrap hwf hinside
  · refine ⟨Directory.wf_empty, .inr ⟨fun k c hc => (by cases hc), fun k c c' _ hc => (by cases hc),
      ?_, Key.root, mem_singleton_self _, hroot⟩⟩
    intro k hk
    rw [mem_singleton.1 hk]
    exact exact_root

/-- The walk ends exactly if no node that it may ask for may have a blank among its letters. -/
theorem walk_ends_iff (sorting : Sorting) (lookup : List CityRow) (city : City) :
    WalkEnds sorting lookup city ↔ NoBlank sorting lookup city := by
  constructor
  · intro h k c hk hc hblank
    refine not_ends_of_blank hk hc hblank (h {} Directory.wf_empty fun k c hc => ?_).1
    cases hc
  · intro h d hwf hcur
    exact ⟨ends_of_noBlank h hwf hcur, fun w hw htodo => visitsNames_of_reached hwf hw htodo⟩

end Forever

theorem spaced_lastName_le (i : ℕ) :
    ['A', Char.ofNat (97 + i / 10), Char.ofNat (97 + i % 10)].length ≤ 50 := by simp

theorem spaced_firstName_le : ['X'].length ≤ 50 := by simp

/-- Fifty last names that start with `A`, two persons each, and one person called `A B`. -/
def spaced : List CityRow :=
  ⟨smallville, ['A', ' ', 'B'], ['X'], 1, by decide, spaced_firstName_le⟩ ::
    (List.range 50).map fun i => ⟨smallville,
      ['A', Char.ofNat (97 + i / 10), Char.ofNat (97 + i % 10)], ['X'], 2, spaced_lastName_le i,
      spaced_firstName_le⟩

def spacedContent (k : Key) : Content :=
  ⟨topN (lastServer []) spaced smallville {} k 50, nextLetters (lastServer []) spaced smallville {}
    k
    (topN (lastServer []) spaced smallville {} k 50)⟩

theorem nextLetters_reply_of_singleton (sorting : Sorting) {c : Content} {g : Text × ℤ}
    (h : c.letters = [g]) : (reply sorting c).nextLetters = toLower (Sql.varchar 50 g.1) := by
  have hsorted : sorting.byLetter [g] = [g] := perm_singleton.1 (sorting.byLetter_perm [g])
  rw [reply, h, hsorted, flatMap_singleton]

/-- The walk asks for `a`, and then for `a` with more and more blanks. -/
theorem spaced_walk_forever :
    ¬ ∃ sorting, Agenda.Ends (Visit sorting spaced smallville) (start {}) := by
  rintro ⟨sorting, hends⟩
  have hletter : 'a' ∈ (reply sorting (spacedContent Key.root)).nextLetters := by
    have hletters : (spacedContent Key.root).letters = [(['A'], 1)] := by decide +kernel
    rw [nextLetters_reply_of_singleton sorting hletters]
    decide
  have hblank : ' ' ∈ (reply sorting (spacedContent ⟨['a'], none⟩)).nextLetters := by
    have hletters : (spacedContent ⟨['a'], none⟩).letters = [([' '], 1)] := by decide +kernel
    rw [nextLetters_reply_of_singleton sorting hletters]
    decide
  have hask : MayAsk sorting spaced smallville ⟨['a'], none⟩ :=
    .letter .root (determined_build _ _ _) hletter (by decide)
  exact not_ends_of_blank hask (determined_build _ _ _) hblank hends

end AciX.Gpd
