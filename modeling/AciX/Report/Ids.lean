import AciX.Report.Create

/-!
# Ids of orders and reports

`spOrderCreate` and `spReportCreate` number their rows on from the start of the day's range, or from
the greatest id from there on. So ids grow, also if the range of a day is used up. Once the last
`INT` has been given out, every further call overflows (`ids_fresh`).
-/

namespace AciX

open List

def isInt (n : ℤ) : Bool := -2 ^ 31 ≤ n && n < 2 ^ 31

theorem isInt_iff {n : ℤ} : isInt n = true ↔ -2147483648 ≤ n ∧ n ≤ 2147483647 := by
  rw [isInt, Bool.and_eq_true, decide_eq_true_eq, decide_eq_true_eq]
  omega

def lastInt : ℤ := 2147483647

/-- From the first of January 2015 on, until the day's range would begin after that of `INT`. -/
def InDates (now : ℤ) : Prop := 0 ≤ now ∧ now / 86400000 ≤ 32767

inductive IdCall where
  | order (siteID : ℕ) (xml : OrderXml) (queryID : Option ℤ) (profileID : Option Text)
  | report (siteID : ℕ) (userID orderID queryID : ℤ) (profileID : Text) (state : Option Text)
      (reportTypeCode json html : Text)

namespace IdCall

section Model

variable (db : Db) (now : ℤ)

def ids : IdCall → List ℤ
  | order _ _ _ _ => db.orders.map (·.id)
  | report _ _ _ _ _ _ _ _ _ => db.reports.map (·.id)

def nextID (c : IdCall) : ℤ :=
  1 + Sql.maxFrom (baseID now) ((c.ids db).filter (baseID now ≤ ·))

def create : IdCall → Except Exn (ℤ × Db)
  | order siteID xml queryID profileID => db.spOrderCreate now siteID xml queryID profileID
  | report siteID userID orderID queryID profileID state code json html =>
    db.spReportCreate now siteID userID orderID queryID profileID state code json html

/-- The tables after a call: an id that is not in the range of `INT` is an arithmetic overflow. -/
def exec (c : IdCall) : Db :=
  if isInt (baseID now) && isInt (c.nextID db now) then
    match c.create db now with
    | .error _ => db
    | .ok (_, db') => db'
  else db

def FailsOfID (c : IdCall) : Prop :=
  isInt (baseID now) = false ∨ isInt (c.nextID db now) = false ∨ c.nextID db now ∈ c.ids db

/-- The ids of the rows that the call stores are greater than those there were, and it fails because
of its id if and only if the last number is in use. -/
structure Fresh (c : IdCall) : Prop where
  stored : ∃ new, c.ids (c.exec db now) = c.ids db ++ new ∧ ∀ i ∈ new, ∀ j ∈ c.ids db, j < i
  failure : c.FailsOfID db now ↔ lastInt ∈ c.ids db

end Model

variable {db db' : Db} {now : ℤ} {c : IdCall}

theorem lt_nextID {j : ℤ} (h : j ∈ c.ids db) : j < c.nextID db now := Sql.lt_maxFrom_filter h

theorem create_ids {id : ℤ} (h : c.create db now = .ok (id, db')) :
    ∃ new, c.ids db' = c.ids db ++ new ∧ ∀ i ∈ new, i = c.nextID db now := by
  rcases c with ⟨siteID, xml, queryID, profileID⟩ | ⟨siteID, userID, orderID, queryID, profileID, _⟩
  · obtain ⟨-, horders⟩ := Db.spOrderCreate_orders h
    refine ⟨(db.newOrders now siteID xml).map (·.id), by simp [ids, horders], ?_⟩
    intro i hi
    obtain ⟨o, ho, rfl⟩ := mem_map.1 hi
    have ho := Sql.mem_of_mem_distinctOn ho
    simp only [mem_flatMap, mem_map] at ho
    obtain ⟨t, -, v, -, rfl⟩ := ho
    rfl
  · obtain ⟨r, oi, rfl, hr, hid, -⟩ := Db.spReportCreate_ok h
    refine ⟨[r.id], by simp [ids, Db.addReport], ?_⟩
    intro i hi
    rw [mem_singleton.1 hi, hr, hid]
    rfl

theorem exec_ids (c : IdCall) (db : Db) (now : ℤ) : ∃ new, c.ids (c.exec db now) = c.ids db ++ new ∧
    ∀ i ∈ new, i = c.nextID db now ∧ isInt i = true := by
  have hnone : ∃ new, c.ids db = c.ids db ++ new ∧
      ∀ i ∈ new, i = c.nextID db now ∧ isInt i = true := ⟨[], by simp, by simp⟩
  unfold exec
  split_ifs with hint
  · split
    · exact hnone
    · rename_i id db' hcreate
      obtain ⟨new, hids, hnew⟩ := create_ids hcreate
      refine ⟨new, hids, fun i hi => ⟨hnew i hi, ?_⟩⟩
      rw [hnew i hi]
      exact (Bool.and_eq_true _ _ ▸ hint).2
  · exact hnone

theorem isInt_baseID (h : InDates now) : isInt (baseID now) = true ∧ baseID now < lastInt := by
  obtain ⟨h₁, h₂⟩ := h
  have hday : 0 ≤ now / 86400000 := Int.ediv_nonneg h₁ (by omega)
  rw [isInt_iff, baseID, lastInt]
  omega

theorem failsOfID_iff (hdate : InDates now) (hids : ∀ i ∈ c.ids db, isInt i = true) :
    c.FailsOfID db now ↔ lastInt ∈ c.ids db := by
  obtain ⟨hbase, hlast⟩ := isInt_baseID hdate
  have hfresh : c.nextID db now ∉ c.ids db := fun h => lt_irrefl _ (lt_nextID h)
  have hover : isInt (c.nextID db now) = false ↔ lastInt < c.nextID db now := by
    have hle := Sql.base_le_maxFrom (baseID now) ((c.ids db).filter (baseID now ≤ ·))
    rw [isInt_iff] at hbase
    rw [← Bool.not_eq_true, isInt_iff, lastInt, nextID]
    omega
  simp only [FailsOfID, hbase, Bool.true_eq_false, hfresh, or_false, false_or, hover]
  refine ⟨fun h => ?_, lt_nextID⟩
  rw [nextID] at h
  rcases Sql.maxFrom_mem (baseID now) ((c.ids db).filter (baseID now ≤ ·)) with hmax | hmem
  · omega
  · obtain ⟨hmem, -⟩ := mem_filter.1 hmem
    have hmax := isInt_iff.1 (hids _ hmem)
    have heq : Sql.maxFrom (baseID now) ((c.ids db).filter (baseID now ≤ ·)) = lastInt := by
      rw [lastInt] at h ⊢
      omega
    rwa [heq] at hmem

def step (db : Db) (c : ℤ × IdCall) : Db := c.2.exec db c.1

end IdCall

structure Db.IdsFit (db : Db) : Prop where
  orders : ∀ o ∈ db.orders, isInt o.id = true
  reports : ∀ r ∈ db.reports, isInt r.id = true

theorem Db.IdsFit.ids {db : Db} (h : db.IdsFit) (c : IdCall) : ∀ i ∈ c.ids db, isInt i = true := by
  intro i hi
  cases c with
  | order siteID xml queryID profileID =>
    obtain ⟨o, ho, rfl⟩ := mem_map.1 hi
    exact h.orders o ho
  | report siteID userID orderID queryID profileID state code json html =>
    obtain ⟨r, hr, rfl⟩ := mem_map.1 hi
    exact h.reports r hr

theorem Db.IdsFit.mem_exec {db : Db} (h : db.IdsFit) (c : IdCall) (now : ℤ) :
    ∀ i ∈ c.ids (c.exec db now), isInt i = true := by
  obtain ⟨new, hids, hnew⟩ := c.exec_ids db now
  intro i hi
  rw [hids] at hi
  rcases mem_append.1 hi with hi | hi
  · exact h.ids c i hi
  · exact (hnew i hi).2

theorem Db.IdsFit.step {db : Db} (h : db.IdsFit) (c : ℤ × IdCall) : (IdCall.step db c).IdsFit := by
  obtain ⟨now, c⟩ := c
  have hmem := h.mem_exec c now
  cases c with
  | order siteID xml queryID profileID =>
    have hreports : ((IdCall.order siteID xml queryID profileID).exec db now).reports =
        db.reports := by
      unfold IdCall.exec
      split_ifs
      · split
        · rfl
        · rename_i id db' hcreate
          obtain ⟨-, -, rfl⟩ := Db.spOrderCreate_ok_iff.1 hcreate
          rfl
      · rfl
    refine ⟨fun o ho => hmem o.id (mem_map_of_mem ho), fun r hr => h.reports r ?_⟩
    rwa [IdCall.step, hreports] at hr
  | report siteID userID orderID queryID profileID state code json html =>
    have horders : ((IdCall.report siteID userID orderID queryID profileID state code json
        html).exec db now).orders = db.orders := by
      unfold IdCall.exec
      split_ifs
      · split
        · rfl
        · rename_i id db' hcreate
          obtain ⟨r, oi, rfl, -⟩ := Db.spReportCreate_ok hcreate
          rfl
      · rfl
    refine ⟨fun o ho => h.orders o ?_, fun r hr => hmem r.id (mem_map_of_mem hr)⟩
    rwa [IdCall.step, horders] at ho

/-- For any calls in the range of dates, on tables whose columns hold numbers of their type. -/
theorem ids_fresh {db : Db} (h : db.IdsFit) {calls : List (ℤ × IdCall)}
    (hdates : ∀ c ∈ calls, InDates c.1) :
    RunOk IdCall.step (fun db c => c.2.Fresh db c.1) db calls := by
  induction calls generalizing db with
  | nil => trivial
  | cons c calls ih =>
    obtain ⟨hc, hcalls⟩ := forall_mem_cons.1 hdates
    obtain ⟨new, hids, hnew⟩ := c.2.exec_ids db c.1
    refine ⟨⟨⟨new, hids, fun i hi j hj => ?_⟩, IdCall.failsOfID_iff hc (h.ids c.2)⟩,
      ih (h.step c) hcalls⟩
    rw [(hnew i hi).1]
    exact IdCall.lt_nextID hj

def lastDayCall : ℤ × IdCall :=
  (32767 * 86400000, .report 1 8 1 3 "TWYHQLQMBBC".toList none "PL".toList [] [])

theorem ids_fresh_lastDay : RunOk IdCall.step (fun db c => c.2.Fresh db c.1) onePurchase.db
    [lastDayCall, lastDayCall] :=
  ids_fresh ⟨by decide, by decide⟩ fun c hc => by
    have hc : c = lastDayCall := by simpa using hc
    subst hc
    exact ⟨by decide, by decide⟩

theorem lastDay_next {rs : List ReportRow} {n : ℕ} (hn : n < 65535)
    (h : lastDayCall.2.nextID { onePurchase.db with reports := rs } lastDayCall.1 =
      2147418113 + n) :
    ∃ rs', IdCall.step { onePurchase.db with reports := rs } lastDayCall =
        { onePurchase.db with reports := rs' } ∧
      lastDayCall.2.nextID { onePurchase.db with reports := rs' } lastDayCall.1 =
        2147418113 + (n + 1 : ℕ) := by
  set db : Db := { onePurchase.db with reports := rs } with hdb
  have hok : ∃ id db', db.spReportCreate lastDayCall.1 1 8 1 3 "TWYHQLQMBBC".toList none "PL".toList
      [] [] = .ok (id, db') := by
    have hitem : ∃ oi, db.reportItem 1 1 = some oi := ⟨_, rfl⟩
    have htype : (db.reportTypeOf 1 (Sql.varchar 3 "PL".toList)).isNone = false := rfl
    obtain ⟨oi, hitem⟩ := hitem
    unfold Db.spReportCreate
    simp only [hitem, htype, Bool.false_eq_true, if_false]
    exact ⟨_, _, rfl⟩
  obtain ⟨id, db', hok⟩ := hok
  have hcreate : lastDayCall.2.create db lastDayCall.1 = .ok (id, db') := hok
  obtain ⟨r, oi, rfl, hid, hr, -⟩ := Db.spReportCreate_ok hok
  rw [← hid] at hr
  change r.id = lastDayCall.2.nextID db lastDayCall.1 at hr
  have hint : isInt (lastDayCall.2.nextID db lastDayCall.1) = true := by
    rw [isInt_iff, h]
    omega
  refine ⟨rs ++ [r], ?_, ?_⟩
  · have hbase : isInt (baseID lastDayCall.1) = true := by decide
    rw [IdCall.step, IdCall.exec, hbase, hint, hcreate]
    rfl
  · have hids : lastDayCall.2.ids { onePurchase.db with reports := rs ++ [r] } =
        lastDayCall.2.ids db ++ [r.id] := map_append
    rw [IdCall.nextID, hids]
    have hbase : baseID lastDayCall.1 = 2147418112 := by decide
    have hmem : r.id ∈ (lastDayCall.2.ids db ++ [r.id]).filter (baseID lastDayCall.1 ≤ ·) := by
      rw [mem_filter, decide_eq_true_eq]
      exact ⟨mem_append_right _ mem_cons_self, by omega⟩
    have hle := Sql.le_maxFrom (b := baseID lastDayCall.1) hmem
    rcases Sql.maxFrom_mem (baseID lastDayCall.1)
      ((lastDayCall.2.ids db ++ [r.id]).filter (baseID lastDayCall.1 ≤ ·)) with hmax | hmax
    · omega
    · rcases mem_append.1 (mem_filter.1 hmax).1 with hold | hnew
      · have : _ < lastDayCall.2.nextID db lastDayCall.1 := IdCall.lt_nextID hold
        omega
      · rw [mem_singleton] at hnew
        omega

theorem lastDay_overflows : onePurchase.db.reports = [] ∧ InDates lastDayCall.1 ∧
    lastDayCall.2.FailsOfID (run IdCall.step onePurchase.db (List.replicate 65535 lastDayCall))
      lastDayCall.1 := by
  have hrun : ∀ n ≤ 65535, ∃ rs, run IdCall.step onePurchase.db (List.replicate n lastDayCall) =
      { onePurchase.db with reports := rs } ∧
      lastDayCall.2.nextID { onePurchase.db with reports := rs } lastDayCall.1 =
        2147418113 + n := by
    intro n
    induction n with
    | zero => exact fun _ => ⟨[], rfl, by decide⟩
    | succ n ih =>
      intro hn
      obtain ⟨rs, hrs, hnext⟩ := ih (by omega)
      obtain ⟨rs', hrs', hnext'⟩ := lastDay_next (by omega) hnext
      refine ⟨rs', ?_, hnext'⟩
      rw [replicate_succ', run_append, hrs]
      exact hrs'
  obtain ⟨rs, hrs, hnext⟩ := hrun 65535 le_rfl
  refine ⟨rfl, ⟨by decide, by decide⟩, .inr (.inl ?_)⟩
  rw [hrs, hnext]
  rfl

end AciX
