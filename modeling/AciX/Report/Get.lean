import AciX.Order.Access

/-!
# Reading reports

`spReportSearch` finds the ids of a user's reports, `spReportGet` joins the rows with their type,
the query they answer and the order they were bought with, and `SiteReportCache` keeps the result.
Under the declared keys each join meets one row, so the cache reads a table: `reportOf`.
-/

namespace AciX

open List Sql

structure DBReport where
  siteID : ℕ
  reportID : ℤ
  userID : ℤ
  orderID : ℤ
  orderExternalID : ℤ
  queryID : ℤ
  profileID : Text
  reportTypeCode : Text
  title : Option Text
  firstName : Option Text
  middleInitial : Option Text
  lastName : Option Text
  state : Option Text
  json : Text
  html : Text
  reportDate : ℤ

structure Report where
  reportID : ℤ
  reportDate : ℤ
  userID : ℤ
  orderID : ℤ
  orderExternalID : ℤ
  queryID : ℤ
  profileID : Text
  title : Text
  reportTypeCode : Text
  firstName : Option Text
  middleInitial : Option Text
  lastName : Option Text
  state : Option Text
  reportJson : Text
  reportHtml : Text
  deriving DecidableEq

structure ReportFilters where
  firstName : Option Text := none
  lastName : Option Text := none
  state : Option Text := none
  profileID : Option Text := none
  orderID : Option ℤ := none

namespace Db

section Model

variable (db : Db)

def reportMatches (f : ReportFilters) (r : ReportRow) : List ReportRow :=
  (leftJoin (fun r oi => oi.id = r.orderItemID) [r] db.orderItems).flatMap fun (r, oi) =>
    ((db.queryNames (some r.queryID)).filter fun (sr, fn, ln) =>
      textFilter 11 (some r.profileID) f.profileID &&
      textFilter 30 (fn.bind (·.name)) f.firstName &&
      textFilter 1 (sr.bind (·.middleInitial)) none &&
      textFilter 30 (ln.bind (·.name)) f.lastName &&
      textFilter 2 r.state f.state &&
      (oi.map (·.orderID)).getD 0 = f.orderID.getD ((oi.map (·.orderID)).getD 0)).map fun _ => r

def spReportSearch (siteID : ℕ) (authorizedUserID : ℤ) (f : ReportFilters) : List ℤ :=
  let authorized : Option ℤ :=
    if f.orderID.isSome && db.isBackofficeReader siteID authorizedUserID then none
    else some authorizedUserID
  ((db.reports.filter fun r => r.siteID = siteID && r.userID = authorized.getD r.userID).flatMap
    (db.reportMatches f)).map (·.id)

def spReportValidateAccess (authorizedUserID : ℤ) (siteID : ℕ) (keys : List ℤ) : List ℤ :=
  let authorized : Option ℤ :=
    if db.isBackofficeReader siteID authorizedUserID then none else some authorizedUserID
  (join (fun r k => k = r.id) (db.reports.filter fun r => r.siteID = siteID &&
    r.userID = authorized.getD r.userID) keys).map (·.1.id)

/-- `DBReport.Read`; of the two columns named `State` the reader meets the report's first. -/
def readReport (r : ReportRow) (rt : ReportTypeRow)
    (q : Option SearchResultsRow × Option NameRow × Option NameRow) (oi : Option OrderItemRow)
    (o : Option OrderRow) : DBReport :=
  { siteID := r.siteID
    reportID := r.id
    userID := r.userID
    orderID := (oi.map (·.orderID)).getD 0
    orderExternalID := (o.bind (·.externalID)).getD 0
    queryID := r.queryID
    profileID := r.profileID
    reportTypeCode := r.reportTypeCode
    title := rt.title
    firstName := q.2.1.bind (·.name)
    middleInitial := q.1.bind (·.middleInitial)
    lastName := q.2.2.bind (·.name)
    state := r.state
    json := r.json
    html := r.html
    reportDate := r.reportDate }

def reportRows (siteID : ℕ) (r : ReportRow) : List DBReport :=
  (db.reportTypes.filter fun rt => rt.siteID = r.siteID &&
    textEq rt.typeCode r.reportTypeCode).flatMap fun rt =>
      (db.queryNames (some r.queryID)).flatMap fun q =>
        (leftJoin (fun _ oi => oi.siteID = siteID && oi.id = r.orderItemID) [()]
          db.orderItems).flatMap fun (_, oi) =>
            (leftJoin (fun _ o => o.siteID = siteID &&
              eqNull (some o.id) (oi.map (·.orderID))) [()] db.orders).map fun (_, o) =>
                readReport r rt q oi o

def spReportGet (siteID : ℕ) (keys : List ℤ) : List DBReport :=
  ((db.reports.filter (·.siteID = siteID)).flatMap fun r =>
    (keys.filter (· = r.id)).flatMap fun _ => db.reportRows siteID r).insertionSort
      fun a b => b.reportDate ≤ a.reportDate

def siteReportCache (siteID : ℕ) : EntityCache ℤ DBReport where
  getFromDB := db.spReportGet siteID
  getKey := DBReport.reportID

def renderReport (r : DBReport) : Report :=
  { reportID := r.reportID
    reportDate := r.reportDate
    userID := r.userID
    orderID := r.orderID
    orderExternalID := r.orderExternalID
    queryID := r.queryID
    profileID := r.profileID
    title := r.title.getD [] ++ " for ".toList ++ r.firstName.getD [] ++ ' ' :: r.lastName.getD []
      ++
      if isNullOrWhiteSpace r.state then [] else " in ".toList ++ r.state.getD []
    reportTypeCode := r.reportTypeCode
    firstName := r.firstName
    middleInitial := r.middleInitial
    lastName := r.lastName
    state := r.state
    reportJson := r.json
    reportHtml := r.html }

structure ReportKeys : Prop extends db.OrderKeys where
  reports : Sql.Unique (fun r : ReportRow => (r.siteID, r.id)) db.reports
  reportTypes : Sql.Unique (fun t : ReportTypeRow => (t.siteID, collate t.typeCode))
    db.reportTypes
  firstNames : Sql.Unique NameRow.id db.firstNames
  lastNames : Sql.Unique NameRow.id db.lastNames
  initials : ∀ sr ∈ db.searchResults, (sr.middleInitial.getD []).length ≤ 1
  typeCodes : ∀ t ∈ db.reportTypes, t.typeCode.length ≤ 3

def queryOf (queryID : Option ℤ) : Option SearchResultsRow × Option NameRow × Option NameRow :=
  let sr := db.searchResults.find? fun sr => eqNull (some sr.id) queryID
  (sr, db.firstNames.find? fun fn => eqNull (sr.bind (·.firstNameID)) (some fn.id),
    db.lastNames.find? fun ln => eqNull (sr.bind (·.lastNameID)) (some ln.id))

def reportTypeOf (siteID : ℕ) (code : Text) : Option ReportTypeRow :=
  db.reportTypes.find? fun rt => rt.siteID = siteID && textEq rt.typeCode code

def reportOf (siteID : ℕ) (reportID : ℤ) : Option DBReport :=
  (db.reports.find? fun r => r.siteID = siteID && r.id = reportID).bind fun r =>
    (db.reportTypeOf r.siteID r.reportTypeCode).map fun rt =>
        let oi := db.orderItems.find? fun oi => oi.siteID = siteID && oi.id = r.orderItemID
        readReport r rt (db.queryOf (some r.queryID)) oi
          (db.orders.find? fun o => o.siteID = siteID && eqNull (some o.id) (oi.map (·.orderID)))

end Model

variable {db : Db}

theorem eqNull_key {α : Type*} {key : α → ℤ} {a b : α} {x : Option ℤ}
    (ha : eqNull (some (key a)) x = true) (hb : eqNull (some (key b)) x = true) :
    key a = key b := by
  obtain ⟨y, hy, hx⟩ := eqNull_iff.1 ha
  obtain ⟨z, hz, hx'⟩ := eqNull_iff.1 hb
  simp only [hx, Option.some.injEq] at hy hz hx'
  rw [hy, hz, hx']

theorem eqNull_comm {α : Type*} [DecidableEq α] (a b : Option α) : eqNull a b = eqNull b a := by
  rcases a with _ | a <;> rcases b with _ | b <;> simp [eq_comm]

theorem leftJoin_name {names : List NameRow} (h : Sql.Unique NameRow.id names) (x : Option ℤ) :
    leftJoin (fun _ n => eqNull x (some n.id)) [()] names
      = [((), names.find? fun n => eqNull x (some n.id))] := by
  refine leftJoin_unique h fun b _ c _ hb hc => ?_
  rw [eqNull_comm] at hb hc
  exact eqNull_key hb hc

theorem queryNames_eq (hk : db.ReportKeys) (queryID : Option ℤ) :
    db.queryNames queryID = [db.queryOf queryID] := by
  have hsr : leftJoin (fun _ sr => eqNull (some sr.id) queryID) [()] db.searchResults
      = [((), db.searchResults.find? fun sr => eqNull (some sr.id) queryID)] :=
    leftJoin_unique hk.searchResults fun b _ c _ hb hc => eqNull_key hb hc
  unfold queryNames queryOf
  simp only [hsr, leftJoin_name hk.firstNames, leftJoin_name hk.lastNames, flatMap_cons,
    flatMap_nil, append_nil, map_cons, map_nil]

theorem filter_types_eq (hk : db.ReportKeys) (siteID : ℕ) (code : Text) :
    db.reportTypes.filter (fun rt => rt.siteID = siteID && textEq rt.typeCode code)
      = (db.reportTypeOf siteID code).toList := by
  refine hk.reportTypes.filter_eq_find? fun a _ b _ ha hb => ?_
  simp only [Bool.and_eq_true, decide_eq_true_eq, textEq_iff] at ha hb
  rw [ha.1, ha.2, hb.1, hb.2]

theorem reportRows_eq (hk : db.ReportKeys) {r : ReportRow} (hr : r ∈ db.reports) :
    db.reportRows r.siteID r = (db.reportOf r.siteID r.id).toList := by
  have hoi : leftJoin (fun _ oi => oi.siteID = r.siteID && oi.id = r.orderItemID) [()]
      db.orderItems
        = [((), db.orderItems.find? fun oi => oi.siteID = r.siteID && oi.id = r.orderItemID)] := by
    refine leftJoin_unique hk.orderItems fun b _ c _ hb hc => ?_
    simp only [Bool.and_eq_true, decide_eq_true_eq] at hb hc
    rw [hb.1, hb.2, hc.1, hc.2]
  have ho : ∀ x : Option ℤ, leftJoin (fun _ o => o.siteID = r.siteID &&
      eqNull (some o.id) x) [()] db.orders
        = [((), db.orders.find? fun o => o.siteID = r.siteID && eqNull (some o.id) x)] := by
    refine fun x => leftJoin_unique hk.orders fun b _ c _ hb hc => ?_
    simp only [Bool.and_eq_true, decide_eq_true_eq] at hb hc
    rw [hb.1, hc.1, eqNull_key hb.2 hc.2]
  have hfind : db.reports.find? (fun r' => r'.siteID = r.siteID && r'.id = r.id) = some r :=
    hk.reports.find?_eq hr (by simp) fun b _ hb => by simpa using hb
  unfold reportRows reportOf
  simp only [filter_types_eq hk, queryNames_eq hk, hoi, ho, hfind, Option.bind_some,
    flatMap_cons, flatMap_nil, append_nil, map_cons, map_nil]
  rcases db.reportTypeOf r.siteID r.reportTypeCode with _ | rt <;> rfl

theorem reportOf_some {siteID : ℕ} {k : ℤ} {e : DBReport} (h : db.reportOf siteID k = some e) :
    ∃ r ∈ db.reports, r.siteID = siteID ∧ r.id = k ∧ e.reportID = k ∧ e.userID = r.userID := by
  unfold reportOf at h
  obtain ⟨r, hr, h⟩ := Option.bind_eq_some_iff.1 h
  obtain ⟨rt, -, rfl⟩ := Option.map_eq_some_iff.1 h
  have hp := find?_some hr
  simp only [Bool.and_eq_true, decide_eq_true_eq] at hp
  exact ⟨r, mem_of_find?_eq_some hr, hp.1, hp.2, hp.2, rfl⟩

theorem siteReportCache_reads (hk : db.ReportKeys) (siteID : ℕ) :
    (db.siteReportCache siteID).Reads (db.reportOf siteID) := by
  refine ⟨fun keys e _ => ?_, fun k e h => ?_⟩
  · simp only [siteReportCache, spReportGet, mem_insertionSort, mem_flatMap,
      mem_filter, decide_eq_true_eq]
    refine ⟨fun ⟨r, ⟨hr, hs⟩, k, ⟨hkm, hid⟩, he⟩ => ?_, fun ⟨k, hkm, hf⟩ => ?_⟩
    · subst hs
      rw [reportRows_eq hk hr, Option.mem_toList] at he
      exact ⟨r.id, hid ▸ hkm, he⟩
    · obtain ⟨r, hr, rfl, rfl, -⟩ := reportOf_some hf
      refine ⟨r, ⟨hr, rfl⟩, r.id, ⟨hkm, rfl⟩, ?_⟩
      rw [reportRows_eq hk hr, Option.mem_toList]
      exact hf
  · obtain ⟨r, -, -, rfl, he, -⟩ := reportOf_some h
    exact he

theorem reportTypeOf_some {siteID : ℕ} {code : Text} {rt : ReportTypeRow}
    (h : db.reportTypeOf siteID code = some rt) :
    rt ∈ db.reportTypes ∧ rt.siteID = siteID ∧ textEq rt.typeCode code = true := by
  have hp := find?_some h
  simp only [Bool.and_eq_true, decide_eq_true_eq] at hp
  exact ⟨mem_of_find?_eq_some h, hp⟩

theorem reportOf_eq (hk : db.ReportKeys) {r : ReportRow} (hr : r ∈ db.reports) {rt : ReportTypeRow}
    (ht : db.reportTypeOf r.siteID r.reportTypeCode = some rt) :
    ∃ e, db.reportOf r.siteID r.id = some e ∧ e.reportTypeCode = r.reportTypeCode
      ∧ e.profileID = r.profileID := by
  have hfind : db.reports.find? (fun r' => r'.siteID = r.siteID && r'.id = r.id) = some r :=
    hk.reports.find?_eq hr (by simp) fun b _ hb => by simpa using hb
  unfold reportOf
  simp only [hfind, Option.bind_some, ht, Option.map_some]
  exact ⟨_, rfl, rfl, rfl⟩

end Db

end AciX
