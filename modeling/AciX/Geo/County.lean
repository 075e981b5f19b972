import AciX.Sql.Cursor
import AciX.Sql.Split
import AciX.Sql.Update

/-!
# One row for each county of a city

`spUtilNormalizeStateCountyCity` goes through the rows of `StateCountyCity` with several county
codes, inserts a row for each code that has a name at its position, and deletes the rows with
several codes. It always comes to its end (`normalize_eq`). Nothing is lost only if there are as
many names as codes in what fits the variables of the cursor, and the other columns fit
(`normalize_normalized_iff`).
-/

namespace AciX.County

variable (n : ℕ) (s : Option Text)

open List Sql

structure CountyRow where
  stateAbbr : Option Text := none
  stateFips : Option Text := none
  cityName : Option Text := none
  cityFips : Option Text := none
  countyFips : Option Text := none
  countyName : Option Text := none

namespace CountyRow

/-- The values fit the columns of the source table. -/
structure Typed (r : CountyRow) : Prop where
  stateAbbr : ∀ s ∈ r.stateAbbr, s.length ≤ 50
  stateFips : ∀ s ∈ r.stateFips, s.length ≤ 50
  cityName : ∀ s ∈ r.cityName, s.length ≤ 500
  cityFips : ∀ s ∈ r.cityFips, s.length ≤ 50
  countyFips : ∀ s ∈ r.countyFips, s.length ≤ 50
  countyName : ∀ s ∈ r.countyName, s.length ≤ 500

def several (r : CountyRow) : Bool := r.countyFips.any fun s => 0 < charIndex ',' s

def fetch (r : CountyRow) : CountyRow where
  stateAbbr := r.stateAbbr.map (char 2)
  stateFips := r.stateFips.map (varchar 10)
  cityName := r.cityName.map (varchar 255)
  cityFips := r.cityFips.map (varchar 10)
  countyFips := r.countyFips.map (varchar 255)
  countyName := r.countyName.map (varchar 255)

/-- A table variable with the parts and their numbers; it stays empty if `fnSplit` fails. -/
def numbered (list : Option Text) : List (Option Text × ℕ) :=
  ((fnSplit list ',').getD []).zipIdx 1

def withCounty (v : CountyRow) (code name : Option Text) : CountyRow :=
  { v with countyFips := code, countyName := name }

def selected (v : CountyRow) : List CountyRow :=
  (join (fun f n => decide (f.2 = n.2)) (numbered v.countyFips) (numbered v.countyName)).map
    fun x => v.withCounty x.1.1 x.2.1

def split (r : CountyRow) : List CountyRow :=
  if r.fetch.selected.all fun x => x.countyFips.all fun s => s.length ≤ 50 then r.fetch.selected
  else []

end CountyRow

def spUtilNormalizeStateCountyCity (fuel : ℕ) (rows : List CountyRow) : Option (List CountyRow) :=
  (cursor CountyRow.several CountyRow.split fuel rows).map fun rows =>
    rows.filter fun r => !r.several

section Statement

namespace CountyRow

variable (r : CountyRow)

def codes : List Text := (r.countyFips.map (parts ',')).getD []

def names : List Text := (r.countyName.map (parts ',')).getD []

def expand (name : ℕ → Option Text) : List CountyRow :=
  r.codes.mapIdx fun i code => r.withCounty (some code) (name i)

def trimmed : CountyRow where
  stateAbbr := r.stateAbbr.map rtrim
  stateFips := r.stateFips.map rtrim
  cityName := r.cityName.map rtrim
  cityFips := r.cityFips.map rtrim
  countyFips := r.countyFips.map rtrim
  countyName := r.countyName.map rtrim

/-- The values also fit the variables they are copied to, and there is a name for each code. -/
structure Whole : Prop where
  stateAbbr : ∀ s ∈ r.stateAbbr, len s ≤ 2
  stateFips : ∀ s ∈ r.stateFips, len s ≤ 10
  cityName : ∀ s ∈ r.cityName, len s ≤ 255
  cityFips : ∀ s ∈ r.cityFips, len s ≤ 10
  names : ∃ s ∈ r.countyName, (∀ part ∈ parts ',' (s.take 255), part.length ≤ 100) ∧
    r.codes.length ≤ (parts ',' (s.take 255)).length ∧
    (parts ',' (s.take 255)).take r.codes.length = r.names.take r.codes.length

end CountyRow

/-- The rows with a single code are there, for each other row there is one row for each of its
codes, with the name at the same position if there is one, and nothing else. -/
def Normalized (rows final : List CountyRow) : Prop :=
  (∀ r ∈ final, r.several = false) ∧ ∃ new, final.Perm (rows.filter (fun r => !r.several) ++ new) ∧
    ∃ name : CountyRow → ℕ → Option Text,
      (∀ r i n, r.names[i]? = some n → name r i = some n) ∧
      (new.map CountyRow.trimmed).Perm
        (((rows.filter CountyRow.several).flatMap fun r => r.expand (name r)).map CountyRow.trimmed)

end Statement

section Loop

variable {r x : CountyRow}

theorem several_iff : r.several = true ↔ ∃ s ∈ r.countyFips, ',' ∈ s := by
  simp [CountyRow.several, Option.any_eq_true, charIndex_pos]

theorem mem_selected (h : x ∈ r.selected) :
    ∃ code ∈ (fnSplit r.countyFips ',').getD [], x.countyFips = code := by
  obtain ⟨y, hy, rfl⟩ := mem_map.1 h
  obtain ⟨hcode, -⟩ := mem_join.1 hy
  exact ⟨y.1.1, fst_mem_of_mem_zipIdx hcode, rfl⟩

theorem single_of_mem_split (h : x ∈ r.split) : x.several = false := by
  unfold CountyRow.split at h
  split_ifs at h
  · obtain ⟨code, hcode, heq⟩ := mem_selected h
    refine Bool.eq_false_iff.2 fun hsev => ?_
    obtain ⟨s, hs, hcomma⟩ := several_iff.1 hsev
    rw [← heq, show x.countyFips = some s from hs] at hcode
    exact notMem_of_mem_fnSplit (by decide) hcode hcomma
  · cases h

theorem normalize_eq (rows : List CountyRow) : ∃ n, ∀ fuel > n,
    spUtilNormalizeStateCountyCity fuel rows =
      some (rows.filter (fun r => !r.several) ++
        (rows.filter CountyRow.several).flatMap CountyRow.split) := by
  refine ⟨rows.length + ((rows.filter CountyRow.several).flatMap CountyRow.split).length,
    fun fuel hfuel => ?_⟩
  have hloop := cursor_eq (fun r _ x hx => single_of_mem_split hx) hfuel
  have hnew : ((rows.filter CountyRow.several).flatMap CountyRow.split).filter
      (fun r => !r.several) = (rows.filter CountyRow.several).flatMap CountyRow.split := by
    refine filter_eq_self.2 fun x hx => ?_
    obtain ⟨r, -, hx⟩ := mem_flatMap.1 hx
    rw [single_of_mem_split hx]
    rfl
  rw [spUtilNormalizeStateCountyCity, hloop, Option.map_some, filter_append, hnew]

end Loop

section Row

variable {r : CountyRow}

def fetchedNames (r : CountyRow) : List (Option Text) :=
  (fnSplit r.fetch.countyName ',').getD []

theorem codes_of_mem {s : Text} (hs : s ∈ r.countyFips) : r.codes = parts ',' s := by
  rw [CountyRow.codes, Option.mem_def.1 hs]
  rfl

theorem two_le_codes (hr : r.several = true) : 2 ≤ r.codes.length := by
  obtain ⟨s, hs, hcomma⟩ := several_iff.1 hr
  rw [codes_of_mem hs]
  exact two_le_length_parts hcomma

theorem length_of_mem_codes (ht : r.Typed) {code : Text} (h : code ∈ r.codes) :
    code.length ≤ 50 := by
  unfold CountyRow.codes at h
  rcases hs : r.countyFips with _ | s
  · rw [hs] at h
    cases h
  · rw [hs] at h
    exact (length_of_mem_parts s h).trans (ht.countyFips s hs)

theorem fnSplit_codes (ht : r.Typed) (hr : r.several = true) :
    (fnSplit r.fetch.countyFips ',').getD [] = r.codes.map some := by
  obtain ⟨s, hs, -⟩ := several_iff.1 hr
  have hlength := ht.countyFips s hs
  have hfetch : r.fetch.countyFips = some s := by
    rw [CountyRow.fetch, Option.mem_def.1 hs, Option.map_some, varchar,
      take_of_length_le (by omega)]
  have hall : (parts ',' s).all (fun part => part.length ≤ 100) = true := by
    refine all_eq_true.2 fun part hp => decide_eq_true ?_
    have hle := length_of_mem_codes ht (codes_of_mem hs ▸ hp)
    omega
  rw [hfetch, fnSplit_some (by decide) (by omega), if_pos hall, codes_of_mem hs]
  rfl

theorem split_eq (ht : r.Typed) (hr : r.several = true) :
    r.split = List.zipWith (fun code name => r.fetch.withCounty (some code) name) r.codes
      (fetchedNames r) := by
  have hall : r.fetch.selected.all (fun x => x.countyFips.all fun s => s.length ≤ 50) = true := by
    refine all_eq_true.2 fun x hx => ?_
    obtain ⟨code, hcode, heq⟩ := mem_selected hx
    rw [fnSplit_codes ht hr] at hcode
    obtain ⟨c, hc, rfl⟩ := mem_map.1 hcode
    rw [heq]
    exact decide_eq_true (length_of_mem_codes ht hc)
  have hselected : r.fetch.selected = List.zipWith r.fetch.withCounty
      ((fnSplit r.fetch.countyFips ',').getD []) (fetchedNames r) :=
    map_join_zipIdx _ _ _ 1
  rw [CountyRow.split, if_pos hall, hselected, fnSplit_codes ht hr, zipWith_map_left]

theorem length_split_le (ht : r.Typed) (hr : r.several = true) :
    r.split.length ≤ r.codes.length := by
  rw [split_eq ht hr, length_zipWith]
  exact Nat.min_le_left _ _

theorem fetchedNames_some {s : Text} (hs : s ∈ r.countyName) :
    fetchedNames r =
      if (parts ',' (s.take 255)).all fun part => part.length ≤ 100 then
        (parts ',' (s.take 255)).map some
      else [] := by
  have hshort : (s.take 255).length ≤ 2000 := by
    rw [length_take]
    omega
  have hfetch : r.fetch.countyName = some (s.take 255) := by
    rw [CountyRow.fetch, Option.mem_def.1 hs]
    rfl
  rw [fetchedNames, hfetch, fnSplit_some (by decide) hshort]
  split_ifs <;> rfl

theorem fetchedNames_of_two_le (h : 2 ≤ (fetchedNames r).length) :
    ∃ s ∈ r.countyName, (∀ part ∈ parts ',' (s.take 255), part.length ≤ 100) ∧
      fetchedNames r = (parts ',' (s.take 255)).map some := by
  rcases hs : r.countyName with _ | s
  · have hnull : fetchedNames r = [none] := by
      rw [fetchedNames, CountyRow.fetch, hs]
      rfl
    rw [hnull, length_singleton] at h
    omega
  · have hnames := fetchedNames_some hs
    split_ifs at hnames with hall
    · refine ⟨s, rfl, fun part hp => ?_, hnames⟩
      exact of_decide_eq_true (all_eq_true.1 hall part hp)
    · rw [hnames, length_nil] at h
      omega

end Row

section Weights

variable {α β : Type} {μ : β → ℕ} {f g : α → List β}

theorem sum_flatMap_le : ∀ {l : List α}, (∀ a ∈ l, ((f a).map μ).sum ≤ ((g a).map μ).sum) →
    ((l.flatMap f).map μ).sum ≤ ((l.flatMap g).map μ).sum
  | [], _ => le_rfl
  | a :: l, h => by
    have hhead := h a mem_cons_self
    have htail := sum_flatMap_le fun b hb => h b (mem_cons_of_mem a hb)
    simp only [flatMap_cons, map_append, sum_append]
    omega

theorem sum_eq_of_sum_flatMap_eq : ∀ {l : List α},
    (∀ a ∈ l, ((f a).map μ).sum ≤ ((g a).map μ).sum) →
    ((l.flatMap f).map μ).sum = ((l.flatMap g).map μ).sum →
      ∀ a ∈ l, ((f a).map μ).sum = ((g a).map μ).sum
  | [], _, _, a, ha => absurd ha not_mem_nil
  | b :: l, h, hsum, a, ha => by
    have hhead := h b mem_cons_self
    have hrest : ∀ a ∈ l, ((f a).map μ).sum ≤ ((g a).map μ).sum := fun a ha =>
      h a (mem_cons_of_mem b ha)
    have htail := sum_flatMap_le hrest
    simp only [flatMap_cons, map_append, sum_append] at hsum
    rcases mem_cons.1 ha with rfl | ha
    · omega
    · exact sum_eq_of_sum_flatMap_eq hrest (by omega) a ha

theorem sum_le_of_forall₂ {R : β → β → Prop} (hR : ∀ x y, R x y → μ x ≤ μ y) {l l' : List β}
    (h : List.Forall₂ R l l') : (l.map μ).sum ≤ (l'.map μ).sum := by
  induction h with
  | nil => exact le_rfl
  | cons hr _ ih =>
    have hle := hR _ _ hr
    simp only [map_cons, sum_cons]
    omega

theorem forall₂_of_sum_eq {R : β → β → Prop} (hR : ∀ x y, R x y → μ x ≤ μ y) {l l' : List β}
    (h : List.Forall₂ R l l') (hsum : (l.map μ).sum = (l'.map μ).sum) :
    List.Forall₂ (fun x y => R x y ∧ μ x = μ y) l l' := by
  induction h with
  | nil => exact .nil
  | cons hr hrest ih =>
    have hle := hR _ _ hr
    have htail := sum_le_of_forall₂ hR hrest
    simp only [map_cons, sum_cons] at hsum
    exact .cons ⟨hr, by omega⟩ (ih (by omega))

end Weights

def width (s : Option Text) : ℕ := (s.map len).getD 0

theorem width_varchar_le : width (s.map (varchar n)) ≤ width s := by
  rcases s with _ | s
  · exact le_rfl
  · exact len_take_le s n

theorem len_le_of_width {n : ℕ} {s : Option Text} (h : width (s.map (varchar n)) = width s) :
    ∀ t ∈ s, len t ≤ n := by
  rintro t rfl
  exact len_le_of_len_take h

theorem width_char : width (s.map (char n)) = width (s.map (varchar n)) := by
  rcases s with _ | s
  · rfl
  · exact congrArg List.length (Sql.rtrim_char n s)

theorem rtrim_varchar {n : ℕ} {s : Option Text} (h : ∀ t ∈ s, len t ≤ n) :
    (s.map (varchar n)).map rtrim = s.map rtrim := by
  rcases s with _ | s
  · rfl
  · exact congrArg some (rtrim_take (h s rfl))

theorem rtrim_char {n : ℕ} {s : Option Text} (h : ∀ t ∈ s, len t ≤ n) :
    (s.map (char n)).map rtrim = s.map rtrim := by
  rw [← rtrim_varchar h]
  rcases s with _ | s
  · rfl
  · exact congrArg some (Sql.rtrim_char n s)

def weight (r : CountyRow) : ℕ :=
  width r.stateAbbr + width r.stateFips + width r.cityName + width r.cityFips + width r.countyName

theorem width_rtrim : width (s.map rtrim) = width s := by
  rcases s with _ | s
  · rfl
  · exact congrArg List.length (rtrim_rtrim s)

theorem weight_trimmed (r : CountyRow) : weight r.trimmed = weight r := by
  simp only [weight, CountyRow.trimmed, width_rtrim]

section Lists

variable {α β γ δ : Type}

theorem forall₂_zipWith {P : β → γ → Prop} {R : δ → δ → Prop} {f : α → β → δ} {g : α → γ → δ}
    (h : ∀ a b c, P b c → R (f a b) (g a c)) {bs : List β} {cs : List γ}
    (hP : List.Forall₂ P bs cs) : ∀ as : List α,
      List.Forall₂ R (List.zipWith f as bs) (List.zipWith g as cs) := by
  induction hP with
  | nil =>
    intro as
    rw [zipWith_nil_right, zipWith_nil_right]
    exact .nil
  | cons hbc _ ih =>
    intro as
    rcases as with _ | ⟨a, as⟩
    · exact .nil
    · exact .cons (h a _ _ hbc) (ih as)

theorem zipWith_take (f : α → β → γ) : ∀ (as : List α) (bs : List β),
    List.zipWith f as (bs.take as.length) = List.zipWith f as bs
  | [], _ => rfl
  | a :: as, [] => rfl
  | a :: as, b :: bs => by
    rw [length_cons, take_succ_cons, zipWith_cons_cons, zipWith_cons_cons, zipWith_take f as bs]

theorem zipWith_right (f : β → γ) : ∀ (as : List α) (bs : List β),
    List.zipWith (fun _ b => f b) as bs = (bs.take as.length).map f
  | [], _ => by rw [length_nil, take_zero]; rfl
  | a :: as, [] => rfl
  | a :: as, b :: bs => by
    rw [length_cons, take_succ_cons, zipWith_cons_cons, map_cons, zipWith_right f as bs]

end Lists

section Necessary

variable {r : CountyRow} {name : ℕ → Option Text}

theorem names_of_mem {s : Text} (hs : s ∈ r.countyName) : r.names = parts ',' s := by
  rw [CountyRow.names, Option.mem_def.1 hs]
  rfl

theorem length_expand : (r.expand name).length = r.codes.length := length_mapIdx

theorem expand_eq (h : r.codes.length ≤ r.names.length)
    (hname : ∀ i n, r.names[i]? = some n → name i = some n) :
    r.expand name = List.zipWith (fun code n => r.withCounty (some code) (some n)) r.codes
      r.names := by
  refine ext_getElem? fun i => ?_
  rw [CountyRow.expand, getElem?_mapIdx, getElem?_zipWith]
  rcases hcode : r.codes[i]? with _ | code
  · rfl
  · obtain ⟨hi, -⟩ := List.getElem?_eq_some_iff.1 hcode
    have hn : r.names[i]? = some r.names[i] := getElem?_eq_getElem (by omega)
    rw [hn, Option.map_some, hname i _ hn]

def Fits (r : CountyRow) : Prop :=
  (∀ s ∈ r.stateAbbr, len s ≤ 2) ∧ (∀ s ∈ r.stateFips, len s ≤ 10) ∧
    (∀ s ∈ r.cityName, len s ≤ 255) ∧ ∀ s ∈ r.cityFips, len s ≤ 10

theorem weight_withCounty (r : CountyRow) (code : Text) {a b : Text} (h : a <+: b) :
    weight (r.fetch.withCounty (some code) (some a)) ≤ weight (r.withCounty (some code) (some b)) ∧
      (weight (r.fetch.withCounty (some code) (some a)) =
        weight (r.withCounty (some code) (some b)) → Fits r ∧ rtrim a = rtrim b) := by
  have hab := rtrim_mono h
  have h1 := width_varchar_le 2 r.stateAbbr
  have h2 := width_varchar_le 10 r.stateFips
  have h3 := width_varchar_le 255 r.cityName
  have h4 := width_varchar_le 10 r.cityFips
  have h5 : (rtrim a).length ≤ (rtrim b).length := hab.length_le
  simp only [weight, CountyRow.withCounty, CountyRow.fetch, width_char]
  have ha : width (some a) = (rtrim a).length := rfl
  have hb : width (some b) = (rtrim b).length := rfl
  rw [ha, hb]
  refine ⟨by omega, fun heq => ⟨⟨?_, ?_, ?_, ?_⟩, hab.eq_of_length (by omega)⟩⟩
  · exact len_le_of_width (by omega)
  · exact len_le_of_width (by omega)
  · exact len_le_of_width (by omega)
  · exact len_le_of_width (by omega)

theorem names_of_length (ht : r.Typed) (hr : r.several = true)
    (hlength : r.split.length = r.codes.length) :
    ∃ s ∈ r.countyName, (∀ part ∈ parts ',' (s.take 255), part.length ≤ 100) ∧
      r.codes.length ≤ (parts ',' (s.take 255)).length ∧
      r.split = List.zipWith (fun code n => r.fetch.withCounty (some code) (some n)) r.codes
        (parts ',' (s.take 255)) := by
  have hsplit := split_eq ht hr
  have hle : r.codes.length ≤ (fetchedNames r).length := by
    rw [hsplit, length_zipWith] at hlength
    omega
  have htwo := two_le_codes hr
  obtain ⟨s, hs, hparts, hnames⟩ := fetchedNames_of_two_le (r := r) (by omega)
  rw [hnames, length_map] at hle
  rw [hnames, zipWith_map_right] at hsplit
  exact ⟨s, hs, hparts, hle, hsplit⟩

def Lighter (r x y : CountyRow) : Prop :=
  weight x ≤ weight y ∧ (weight x = weight y →
    Fits r ∧ x.countyName.map rtrim = y.countyName.map rtrim)

theorem forall₂_lighter {s : Text} (hs : s ∈ r.countyName)
    (hle : r.codes.length ≤ (parts ',' (s.take 255)).length)
    (hsplit : r.split = List.zipWith (fun code n => r.fetch.withCounty (some code) (some n)) r.codes
      (parts ',' (s.take 255)))
    (hname : ∀ i n, r.names[i]? = some n → name i = some n) :
    List.Forall₂ (Lighter r) r.split (r.expand name) := by
  obtain ⟨first, rest, hnames, hfirst⟩ := parts_take ',' s 255
  have hlength := hfirst.length_eq
  rw [← names_of_mem hs] at hnames
  have hexpand : r.expand name = List.zipWith
      (fun code n => r.withCounty (some code) (some n)) r.codes first := by
    have hle' : r.codes.length ≤ r.names.length := by
      rw [hnames, length_append]
      omega
    rw [expand_eq hle' hname, ← zipWith_take, ← zipWith_take _ _ first, hnames,
      take_append_of_le_length (by omega)]
  rw [hsplit, hexpand]
  refine forall₂_zipWith (fun code a b hab => ?_) hfirst r.codes
  obtain ⟨hle, heq⟩ := weight_withCounty r code hab
  exact ⟨hle, fun h => ⟨(heq h).1, congrArg some (heq h).2⟩⟩

theorem map_rtrim_parts {s : Text} {l : List Text} (h : ∀ part ∈ l, part ∈ parts ',' s) :
    l.map (fun n => some (rtrim n)) = l.map some :=
  map_congr_left fun part hp => congrArg some (rtrim_of_mem_parts (h part hp))

theorem whole_of_weight (ht : r.Typed) (hr : r.several = true)
    (hlength : r.split.length = r.codes.length)
    (hname : ∀ i n, r.names[i]? = some n → name i = some n)
    (hsum : (r.split.map weight).sum = ((r.expand name).map weight).sum) : r.Whole := by
  obtain ⟨s, hs, hparts, hle, hsplit⟩ := names_of_length ht hr hlength
  have hrows := (forall₂_of_sum_eq (fun _ _ h => h.1)
    (forall₂_lighter hs hle hsplit hname) hsum).imp fun x y h => h.1.2 h.2
  have htwo := two_le_codes hr
  obtain ⟨hfit, hcounty⟩ := (List.forall₂_and_left r.split _).1 hrows
  have hfits : Fits r := by
    obtain ⟨x, hx⟩ := exists_mem_of_length_pos (show 0 < r.split.length by omega)
    exact hfit x hx
  have hcut : (parts ',' (s.take 255)).length ≤ r.names.length := by
    obtain ⟨first, rest, hnames, hfirst⟩ := parts_take ',' s 255
    rw [names_of_mem hs, hnames, length_append, hfirst.length_eq]
    omega
  have heq : r.split.map (fun x => x.countyName.map rtrim) =
      (r.expand name).map (fun x => x.countyName.map rtrim) :=
    map_eq_of_forall₂ hcounty
  rw [hsplit, expand_eq (by omega) hname, map_zipWith, map_zipWith] at heq
  have hnames := (zipWith_right (fun n => some (rtrim n)) r.codes _).symm.trans
    (heq.trans (zipWith_right (fun n => some (rtrim n)) r.codes _))
  rw [map_rtrim_parts fun _ => mem_of_mem_take, names_of_mem hs,
    map_rtrim_parts fun _ => mem_of_mem_take] at hnames
  refine ⟨hfits.1, hfits.2.1, hfits.2.2.1, hfits.2.2.2, s, hs, hparts, hle, ?_⟩
  rw [names_of_mem hs]
  exact map_injective_iff.2 (Option.some_injective _) hnames

end Necessary

section Sufficient

variable {r : CountyRow} {name : ℕ → Option Text}

theorem trimmed_withCounty (h : r.Whole) (code n : Text) :
    (r.fetch.withCounty (some code) (some n)).trimmed =
      (r.withCounty (some code) (some n)).trimmed := by
  simp only [CountyRow.trimmed, CountyRow.withCounty, CountyRow.fetch, rtrim_char h.stateAbbr,
    rtrim_varchar h.stateFips, rtrim_varchar h.cityName, rtrim_varchar h.cityFips]

theorem map_trimmed_split (ht : r.Typed) (hr : r.several = true) (h : r.Whole)
    (hname : ∀ i n, r.names[i]? = some n → name i = some n) :
    r.split.map CountyRow.trimmed = (r.expand name).map CountyRow.trimmed := by
  obtain ⟨s, hs, hparts, hle, htake⟩ := h.names
  have hall : (parts ',' (s.take 255)).all (fun part => part.length ≤ 100) = true :=
    all_eq_true.2 fun part hp => decide_eq_true (hparts part hp)
  have hnames : r.codes.length ≤ r.names.length := by
    have hlength := congrArg List.length htake
    rw [length_take, length_take] at hlength
    omega
  rw [split_eq ht hr, fetchedNames_some hs, if_pos hall, zipWith_map_right,
    expand_eq hnames hname, ← zipWith_take, htake, zipWith_take, map_zipWith,
    map_zipWith]
  simp only [trimmed_withCounty h]

end Sufficient

section Main

variable {rows : List CountyRow}

/-- What is inserted is a permutation of what should be there only if each row is whole: a row that
is lost makes it shorter, and then a character that is lost makes it lighter. -/
theorem whole_of_perm (ht : ∀ r ∈ rows, r.Typed) (hsev : ∀ r ∈ rows, r.several = true)
    {name : CountyRow → ℕ → Option Text} (hname : ∀ r i n, r.names[i]? = some n → name r i = some n)
    (h : ((rows.flatMap CountyRow.split).map CountyRow.trimmed).Perm
      ((rows.flatMap fun r => r.expand (name r)).map CountyRow.trimmed)) :
    ∀ r ∈ rows, r.Whole := by
  have hcount (l : List CountyRow) : (l.map fun _ => 1).sum = l.length := by simp
  have hlength : ∀ r ∈ rows, r.split.length = r.codes.length := by
    have htotal := h.length_eq
    rw [length_map, length_map, ← hcount, ← hcount] at htotal
    have heq := sum_eq_of_sum_flatMap_eq (fun r hr => ?_) htotal
    · intro r hr
      rw [← length_expand, ← hcount, ← hcount]
      exact heq r hr
    · rw [hcount, hcount, length_expand]
      exact length_split_le (ht r hr) (hsev r hr)
  have htotal := (h.map weight).sum_eq
  have hweight : weight ∘ CountyRow.trimmed = weight := funext weight_trimmed
  rw [map_map, map_map, hweight] at htotal
  have heq := sum_eq_of_sum_flatMap_eq (fun r hr => ?_) htotal
  · exact fun r hr => whole_of_weight (ht r hr) (hsev r hr) (hlength r hr) (hname r) (heq r hr)
  · obtain ⟨s, hs, -, hle, hsplit⟩ := names_of_length (ht r hr) (hsev r hr) (hlength r hr)
    exact sum_le_of_forall₂ (fun _ _ h => h.1) (forall₂_lighter hs hle hsplit (hname r))

theorem whole_of_normalized (ht : ∀ r ∈ rows, r.Typed)
    (h : ∃ n, ∀ fuel > n, ∃ final,
      spUtilNormalizeStateCountyCity fuel rows = some final ∧ Normalized rows final) :
    ∀ r ∈ rows, r.several = true → r.Whole := by
  obtain ⟨n, hn⟩ := h
  obtain ⟨m, hm⟩ := normalize_eq rows
  obtain ⟨final, hfinal, -, new, hperm, name, hname, hnew⟩ := hn (n + m + 1) (by omega)
  obtain rfl := Option.some.inj ((hm (n + m + 1) (by omega)).symm.trans hfinal)
  have hinserted := (perm_append_left_iff _).1 hperm
  have hwhole := whole_of_perm (fun r hr => ht r (mem_of_mem_filter hr))
    (fun r hr => (mem_filter.1 hr).2) hname ((hinserted.map CountyRow.trimmed).trans hnew)
  exact fun r hr hsev => hwhole r (mem_filter.2 ⟨hr, hsev⟩)

theorem normalized_of_whole (ht : ∀ r ∈ rows, r.Typed)
    (h : ∀ r ∈ rows, r.several = true → r.Whole) :
    Normalized rows (rows.filter (fun r => !r.several) ++
      (rows.filter CountyRow.several).flatMap CountyRow.split) := by
  refine ⟨fun r hr => ?_, _, .refl _, fun r i => r.names[i]?, fun r i n hn => hn, ?_⟩
  · rcases mem_append.1 hr with hr | hr
    · simpa using (mem_filter.1 hr).2
    · obtain ⟨r', -, hr⟩ := mem_flatMap.1 hr
      exact single_of_mem_split hr
  · rw [map_flatMap, map_flatMap]
    refine .of_eq (flatMap_congr fun r hr => ?_)
    obtain ⟨hr, hsev⟩ := mem_filter.1 hr
    exact map_trimmed_split (ht r hr) hsev (h r hr hsev) fun i n hn => hn

/-- Nothing is lost if and only if each row with several codes is whole. -/
theorem normalize_normalized_iff (ht : ∀ r ∈ rows, r.Typed) :
    (∃ n, ∀ fuel > n, ∃ final,
        spUtilNormalizeStateCountyCity fuel rows = some final ∧ Normalized rows final) ↔
      ∀ r ∈ rows, r.several = true → r.Whole := by
  refine ⟨whole_of_normalized ht, fun h => ?_⟩
  obtain ⟨n, hn⟩ := normalize_eq rows
  exact ⟨n, fun fuel hfuel => ⟨_, hn fuel hfuel, normalized_of_whole ht h⟩⟩

def kansasCity (names : Text) : CountyRow where
  stateAbbr := some ['M', 'O']
  stateFips := some ['2', '9']
  cityName := some ['K', 'a', 'n', 's', 'a', 's', ' ', 'C', 'i', 't', 'y']
  cityFips := some ['3', '8', '0', '0', '0']
  countyFips := some ['0', '9', '5', ',', '0', '4', '7']
  countyName := some names

theorem typed_kansasCity {names : Text} (h : names.length ≤ 500) : (kansasCity names).Typed where
  stateAbbr := by simp [kansasCity]
  stateFips := by simp [kansasCity]
  cityName := by simp [kansasCity]
  cityFips := by simp [kansasCity]
  countyFips := by simp [kansasCity]
  countyName := by simpa [kansasCity] using h

def bothNames : Text := ['J', 'a', 'c', 'k', 's', 'o', 'n', ',', ' ', 'C', 'l', 'a', 'y']

theorem whole_bothNames : (kansasCity bothNames).Whole where
  stateAbbr := by decide
  stateFips := by decide
  cityName := by decide
  cityFips := by decide
  names := ⟨bothNames, rfl, by decide⟩

theorem bothNames_normalized : (kansasCity bothNames).Typed ∧ (kansasCity bothNames).Whole ∧
    ∃ n, ∀ fuel > n, ∃ final,
      spUtilNormalizeStateCountyCity fuel [kansasCity bothNames] = some final ∧
        Normalized [kansasCity bothNames] final := by
  have ht : (kansasCity bothNames).Typed := typed_kansasCity (by decide)
  refine ⟨ht, whole_bothNames, (normalize_normalized_iff ?_).2 ?_⟩
  · exact fun r hr => mem_singleton.1 hr ▸ ht
  · exact fun r hr _ => mem_singleton.1 hr ▸ whole_bothNames

def oneName : Text := ['J', 'a', 'c', 'k', 's', 'o', 'n']

theorem oneName_not_normalized : ¬ ∃ n, ∀ fuel > n, ∃ final,
    spUtilNormalizeStateCountyCity fuel [kansasCity oneName] = some final ∧
      Normalized [kansasCity oneName] final := by
  intro h
  have ht : (kansasCity oneName).Typed := typed_kansasCity (by decide)
  have hwhole := whole_of_normalized (fun r hr => mem_singleton.1 hr ▸ ht) h _
    (mem_singleton_self _) (by decide)
  obtain ⟨s, hs, -, hle, -⟩ := hwhole.names
  obtain rfl := Option.some.inj hs
  revert hle
  decide

end Main

end AciX.County
