import AciX.Run
import AciX.Sql.Case
import AciX.Sql.Rows

/-!
# The table of carts

`spCartUpdate` looks for the open cart of a visit, adds one if there is none, and closes it with an
order or puts a product into it. So no visit gets two open carts (`carts_proper`).
-/

namespace AciX

open List Sql

structure CartRow where
  siteID : Option ℕ
  id : ℤ
  visitID : Option ℤ
  orderID : Option ℤ := none
  productID : Option ℤ
  queryID : Option ℤ
  profileID : Option Text
  state : Option Text
  dateCreated : Option ℤ
  dateModified : Option ℤ
  deriving DecidableEq

/-- The parameters of `spCartUpdate`, and the time. -/
structure CartCall where
  siteID : ℕ
  visitID : ℤ
  orderID : Option ℤ := none
  productID : Option ℤ := none
  queryID : Option ℤ := none
  profileID : Option Text := none
  state : Option Text := none
  now : ℤ

namespace CartRow

def isOf (siteID : ℕ) (visitID : ℤ) (r : CartRow) : Bool :=
  r.siteID = some siteID && r.visitID = some visitID

def isOpen (siteID : ℕ) (visitID : ℤ) (r : CartRow) : Bool :=
    r.isOf siteID visitID && r.orderID.isNone

def sortDate (r : CartRow) : ℤ := r.dateModified.getD (-2 ^ 62)

end CartRow

namespace CartCall

variable (a : CartCall)

def newRow (id : ℤ) : CartRow where
  siteID := some a.siteID
  id := id
  visitID := some a.visitID
  productID := a.productID
  queryID := a.queryID
  profileID := a.profileID.map (char 11)
  state := a.state.map (char 2)
  dateCreated := some a.now
  dateModified := some a.now

def update (r : CartRow) : CartRow :=
  match a.orderID with
  | some orderID => { r with orderID := some orderID, dateModified := some a.now }
  | none =>
    { r with
      productID := a.productID
      queryID := a.queryID
      profileID := a.profileID.map (char 11)
      state := a.state.map (char 2)
      dateModified := some a.now }

def cartID (carts : List CartRow) : Option ℤ :=
  (top CartRow.sortDate (carts.filter (CartRow.isOpen a.siteID a.visitID))).map (·.id)

def spCartUpdate (carts : List CartRow) : List CartRow :=
  let updateCart (id : ℤ) (carts : List CartRow) : List CartRow :=
    carts.map fun r => if r.siteID = some a.siteID ∧ r.id = id then a.update r else r
  match a.cartID carts with
  | some id => updateCart id carts
  | none =>
    let id := 1 + maxFrom 0 (carts.map CartRow.id)
    updateCart id (carts ++ [a.newRow id])

/-- A visit has at most one open cart. -/
def OneOpen (carts : List CartRow) : Prop :=
  ∀ siteID visitID, carts.countP (CartRow.isOpen siteID visitID) ≤ 1

/-- There is still at most one open cart for a visit, and none for this one if it was closed; carts
with an order, and those of other visits, are as they were. -/
structure Proper (carts : List CartRow) : Prop where
  one : OneOpen (a.spCartUpdate carts)
  closed : ∀ r ∈ carts, r.orderID ≠ none → r ∈ a.spCartUpdate carts
  others : (a.spCartUpdate carts).filter (fun r => !r.isOf a.siteID a.visitID) =
    carts.filter fun r => !r.isOf a.siteID a.visitID
  none : a.orderID ≠ none → ∀ r ∈ a.spCartUpdate carts, r.isOpen a.siteID a.visitID = false

variable {a} {carts : List CartRow}

theorem update_isOf (r : CartRow) (siteID : ℕ) (visitID : ℤ) :
    (a.update r).isOf siteID visitID = r.isOf siteID visitID := by
  unfold update
  cases a.orderID <;> rfl

theorem isOpen_update {r : CartRow} {siteID : ℕ} {visitID : ℤ}
    (h : (a.update r).isOpen siteID visitID = true) :
    a.orderID = none ∧ r.isOpen siteID visitID = true := by
  unfold update at h
  cases hid : a.orderID <;> simp_all [CartRow.isOpen, CartRow.isOf]

theorem OneOpen.eq (h : OneOpen carts) {siteID : ℕ} {visitID : ℤ} {r q : CartRow} (hr : r ∈ carts)
    (hq : q ∈ carts) (hro : r.isOpen siteID visitID = true) (hqo : q.isOpen siteID visitID = true) :
    r = q := by
  have hlength := h siteID visitID
  have hr := mem_filter.2 ⟨hr, hro⟩
  have hq := mem_filter.2 ⟨hq, hqo⟩
  rw [countP_eq_length_filter] at hlength
  rcases hfilter : carts.filter (CartRow.isOpen siteID visitID) with _ | ⟨s, _ | ⟨s', rest⟩⟩
  · rw [hfilter] at hr
    cases hr
  · rw [hfilter, mem_singleton] at hr hq
    rw [hr, hq]
  · rw [hfilter] at hlength
    simp at hlength

theorem spCartUpdate_spec (hkeys : Sql.Unique CartRow.id carts) (hone : OneOpen carts) :
    ∃ rows r, (rows = carts ∨ rows = carts ++ [r]) ∧ Sql.Unique CartRow.id rows ∧ OneOpen rows ∧
      r ∈ rows ∧ r.isOpen a.siteID a.visitID = true ∧
      a.spCartUpdate carts = rows.map fun q => if q = r then a.update q else q := by
  have hwrite : ∀ {rows : List CartRow} {r : CartRow}, Sql.Unique CartRow.id rows → r ∈ rows →
      r.isOpen a.siteID a.visitID = true →
      (rows.map fun q => if q.siteID = some a.siteID ∧ q.id = r.id then a.update q else q) =
        rows.map fun q => if q = r then a.update q else q := by
    intro rows r hrows hr hopen
    refine map_congr_left fun q hq => ?_
    have hiff : (q.siteID = some a.siteID ∧ q.id = r.id) ↔ q = r := by
      refine ⟨fun h => hrows.eq hq hr h.2, ?_⟩
      rintro rfl
      simp only [CartRow.isOpen, CartRow.isOf, Bool.and_eq_true, decide_eq_true_eq] at hopen
      exact ⟨hopen.1.1, rfl⟩
    simp only [hiff]
  unfold spCartUpdate
  rcases hid : a.cartID carts with _ | id
  · have hnone : carts.filter (CartRow.isOpen a.siteID a.visitID) = [] :=
      top_eq_none.1 (Option.map_eq_none_iff.1 hid)
    have hopen : (a.newRow (1 + maxFrom 0 (carts.map CartRow.id))).isOpen a.siteID a.visitID =
      true := by simp [newRow, CartRow.isOpen, CartRow.isOf]
    have hunique : Sql.Unique CartRow.id
        (carts ++ [a.newRow (1 + maxFrom 0 (carts.map CartRow.id))]) := by
      refine hkeys.append (nodup_singleton _) fun r hr q hq heq => ?_
      rw [mem_singleton.1 hq] at heq
      have hle := le_maxFrom (b := 0) (mem_map_of_mem (f := CartRow.id) hr)
      have hid : r.id = 1 + maxFrom 0 (carts.map CartRow.id) := heq
      omega
    refine ⟨_, _, .inr rfl, hunique, fun siteID visitID => ?_,
      mem_append_right _ mem_cons_self, hopen, hwrite hunique
        (mem_append_right _ mem_cons_self) hopen⟩
    rw [countP_append, countP_singleton]
    by_cases hsame : siteID = a.siteID ∧ visitID = a.visitID
    · rw [hsame.1, hsame.2, countP_eq_length_filter, hnone]
      simp [hopen]
    · have hnot : (a.newRow (1 + maxFrom 0 (carts.map CartRow.id))).isOpen siteID visitID =
          false := by
        rw [← Bool.not_eq_true]
        intro h
        simp only [newRow, CartRow.isOpen, CartRow.isOf, Bool.and_eq_true, decide_eq_true_eq,
          Option.some.injEq] at h
        exact hsame ⟨h.1.1.symm, h.1.2.symm⟩
      simpa [hnot] using hone siteID visitID
  · obtain ⟨r, htop, rfl⟩ := Option.map_eq_some_iff.1 hid
    obtain ⟨hr, hopen⟩ := mem_filter.1 (top_mem htop).1
    exact ⟨carts, r, .inl rfl, hkeys, hone, hr, hopen, hwrite hkeys hr hopen⟩

theorem proper_of_keys (hkeys : Sql.Unique CartRow.id carts) (hone : OneOpen carts) :
    a.Proper carts ∧ Sql.Unique CartRow.id (a.spCartUpdate carts) := by
  obtain ⟨rows, r, hrows, hunique, hrone, hr, hopen, heq⟩ := spCartUpdate_spec (a := a) hkeys hone
  have hof : r.isOf a.siteID a.visitID = true := (Bool.and_eq_true _ _ ▸ hopen).1
  have hkept : ∀ q siteID visitID,
      (if q = r then a.update q else q).isOpen siteID visitID = true →
        q.isOpen siteID visitID = true := by
    intro q siteID visitID h
    split_ifs at h
    · exact (isOpen_update h).2
    · exact h
  refine ⟨⟨fun siteID visitID => ?_, fun q hq hclosed => ?_, ?_, fun hid q hq => ?_⟩, ?_⟩
  · rw [heq, countP_map]
    exact (countP_mono_left fun q _ => hkept q siteID visitID).trans (hrone siteID visitID)
  · have hne : q ≠ r := by
      rintro rfl
      simp [CartRow.isOpen, hclosed] at hopen
    have hmem : q ∈ rows := by
      rcases hrows with rfl | rfl
      · exact hq
      · exact mem_append_left _ hq
    rw [heq, mem_map]
    exact ⟨q, hmem, if_neg hne⟩
  · have hmap : rows.filter (fun q => !q.isOf a.siteID a.visitID) =
        carts.filter fun q => !q.isOf a.siteID a.visitID := by
      rcases hrows with rfl | rfl
      · rfl
      · simp [filter_append, hof]
    rw [heq, filter_map, ← hmap]
    have hsame : ∀ q : CartRow, (if q = r then a.update q else q).isOf a.siteID a.visitID =
        q.isOf a.siteID a.visitID := by
      intro q
      split_ifs
      · exact update_isOf q _ _
      · rfl
    simp only [Function.comp_def, hsame]
    refine (map_congr_left fun q hq => if_neg ?_).trans (map_id _)
    rintro rfl
    simp [hof] at hq
  · rw [heq] at hq
    obtain ⟨p, hp, rfl⟩ := mem_map.1 hq
    rw [← Bool.not_eq_true]
    intro h
    by_cases hpr : p = r
    · rw [if_pos hpr] at h
      exact hid (isOpen_update h).1
    · exact hpr (hrone.eq hp hr (hkept p _ _ h) hopen)
  · have hid : ∀ q : CartRow, (if q = r then a.update q else q).id = q.id := by
      intro q
      unfold update
      split_ifs
      · cases a.orderID <;> rfl
      · rfl
    rw [heq, Sql.Unique, map_map]
    exact (map_congr_left fun q _ => hid q).symm ▸ hunique

/-- For any calls, on a table with unique ids and without two open carts of one visit. -/
theorem carts_proper (hkeys : Sql.Unique CartRow.id carts) (hone : OneOpen carts)
    (calls : List CartCall) : RunOk (fun carts a => spCartUpdate a carts)
      (fun carts a => a.Proper carts) carts calls := by
  induction calls generalizing carts with
  | nil => trivial
  | cons a calls ih =>
    obtain ⟨hproper, hkeys'⟩ := proper_of_keys (a := a) hkeys hone
    exact ⟨hproper, ih hkeys' hproper.one⟩

theorem carts_proper_two : RunOk (fun carts a => spCartUpdate a carts)
    (fun carts a => a.Proper carts) []
    [{ siteID := 1, visitID := 5, productID := some 7, now := 0 },
      { siteID := 1, visitID := 5, orderID := some 9, now := 1 }] :=
  carts_proper (show Sql.Unique CartRow.id [] from nodup_nil) (fun _ _ => Nat.zero_le 1) _

end CartCall

end AciX
