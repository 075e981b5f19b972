import AciX.Order.Create
import AciX.Report.Get
import AciX.Run

/-!
# Creating a report

`Report.Create` refuses an order that already has a report of this type and profile, fetches the
profile (once more if the first answer is empty), stores the report and debits the order. The
refusal compares type code and profile id as they are spelled with what the table holds
(`twoReports`); `reports_distinct` is about requests that spell them as stored.
-/

namespace AciX

open EntityCache List Sql

structure DBQuery where
  queryID : ℤ
  firstName : Option Text
  middleInitial : Option Text
  lastName : Option Text
  state : Option Text
  deriving DecidableEq

/-- The parts of a profile that `Report.Create` reads or changes; an array is `none` when its
element is missing. -/
structure Phone where
  phoneNumber : Option Text := none
  addressIDs : List Text := []

structure Address where
  addressID : Option Text := none
  phones : Option Text := none

structure CriminalRecord where
  stateCode : Option Text := none

structure Profile where
  fullName : Option Text := none
  phones : List Phone := []
  addresses : List Address := []
  criminalRecords : List CriminalRecord := []
  noRecordsFound : Option Text := none

structure ReportCall where
  typeCode : Option Text
  orderID : ℤ
  queryID : ℤ
  profileID : Text

structure ReportEnv where
  now : ℤ := 0
  /-- The answer of `ProfileHelper.GetProfile` on the first try and on the retry; `none` is a
  response without a profile. -/
  getProfile : Bool → Text → Option Text → Option Text → Except Exn (Option Profile)
  deleteCachedProfile : Except Exn Unit := .ok ()
  serialize : Profile → Except Exn (Text × Text) := fun _ => .ok ([], [])
  cartUpdate : Except Exn Unit := .ok ()
  debitOrder : Order → OrderItem → Except Exn Unit := fun _ _ => .ok ()

def connectAddress (phones : List Phone) (a : Address) : Except Exn Address :=
  let ids := phones.flatMap fun p => p.addressIDs.map fun id => (id, p.phoneNumber.getD [])
  match ids, a.addressID with
  | [], _ => .ok a
  | _ :: _, none => .error .nullReference
  | ids, some addressID =>
    let list := (ids.filter (·.1 = addressID)).map (·.2)
    .ok (if list.length > 0 then { a with phones := some (", ".toList.intercalate list) } else a)

def connectPhones (p : Profile) : Except Exn Profile :=
  if p.phones.length > 0 && p.addresses.length > 0 then do
    let addresses ← p.addresses.mapM (connectAddress p.phones)
    pure { p with addresses := addresses }
  else .ok p

namespace Db

section Model

variable (db : Db)

def criminalCheck (typeCode : Option Text) (state : Option Text) (p : Profile) :
    Except Exn Profile :=
  match typeCode with
  | none => .error .nullReference
  | some code =>
    if toUpper code = "SCC".toList then
      let records := p.criminalRecords.filter fun r =>
        match state with
        | some s => toUpper (r.stateCode.getD []) = toUpper s
        | none => false
      if records = [] then
        match p.fullName, state with
        | some name, some s => do
          let stateName ← db.stateByAbbr s
          pure { p with
            criminalRecords := []
            noRecordsFound := some ("No criminal records were found for ".toList ++ name ++
              " in ".toList ++ stateName ++
              (".</br>To check for criminal records in all states, " ++
              "try our Nationwide Criminal Check.").toList) }
        | _, _ => .error .nullReference
      else .ok { p with criminalRecords := records }
    else if toUpper code = "NCC".toList && p.criminalRecords = [] then
      match p.fullName with
      | some name => .ok { p with
          noRecordsFound := some ("No criminal records were found for ".toList ++ name ++ ['.']) }
      | none => .error .nullReference
    else .ok p

def spQueryGet (queryID : ℤ) : List DBQuery :=
  (db.searchResults.filter (·.id = queryID)).flatMap fun sr =>
    (db.firstNames.filter fun fn => eqNull sr.firstNameID (some fn.id)).flatMap fun fn =>
      (db.lastNames.filter fun ln => eqNull sr.lastNameID (some ln.id)).map fun ln =>
        { queryID := sr.id
          firstName := fn.name
          middleInitial := sr.middleInitial
          lastName := ln.name
          state := sr.state }

/-- `QueryCache` asks for one key only. -/
def queryCache : EntityCache ℤ DBQuery where
  getFromDB
    | [] => []
    | key :: _ => db.spQueryGet key
  getKey := DBQuery.queryID

def spReportTypeGet (siteID : ℕ) (keys : List Text) : List ReportTypeRow :=
  (db.reportTypes.filter (·.siteID = siteID)).flatMap fun rt =>
    (keys.filter (textEq rt.typeCode)).map fun _ => rt

def reportTypeCache (siteID : ℕ) : EntityCache Text ReportTypeRow where
  getFromDB := db.spReportTypeGet siteID
  getKey := ReportTypeRow.typeCode

def nextReportID (now : ℤ) : ℤ :=
  1 + maxFrom (baseID now) ((db.reports.map (·.id)).filter (baseID now ≤ ·))

/-- The item a report is stored for: the last one met whose product has a report type. -/
def reportItem (siteID : ℕ) (orderID : ℤ) : Option OrderItemRow :=
  (selectLast (fun (oi, p) => oi.siteID = siteID && oi.orderID = orderID &&
      p.reportTypeCode.isSome)
    (join (fun oi p => p.siteID = oi.siteID && eqNull (some p.id) oi.productID)
      db.orderItems db.products)).map (·.1)

/-- The row `spReportCreate` inserts; no item for it to refer to, or an unknown type, violates a
constraint. Numbers are not bounded here; `IdCall.exec` adds the overflow of the id. -/
def spReportCreate (now : ℤ) (siteID : ℕ) (userID orderID queryID : ℤ) (profileID : Text)
    (state : Option Text) (reportTypeCode json html : Text) : Except Exn (ℤ × Db) :=
  match db.reportItem siteID orderID with
  | none => .error .sql
  | some oi =>
    let code := varchar 3 reportTypeCode
    if (db.reportTypeOf siteID code).isNone then .error .sql
    else
      let id := db.nextReportID now
      .ok (id, { db with reports := db.reports ++ [
        { siteID := siteID
          id := id
          userID := userID
          orderItemID := oi.id
          reportTypeCode := code
          queryID := queryID
          profileID := char 11 profileID
          state := state.map (char 2)
          reportDate := now
          json := json
          html := html }] })

def reportOrder (r : ReportRow) : Option ℤ :=
  (db.orderItems.find? fun oi => oi.siteID = r.siteID && oi.id = r.orderItemID).map (·.orderID)

/-- No two reports of an order have the same type and profile. -/
def ReportsDistinct : Prop :=
  ∀ r ∈ db.reports, ∀ r' ∈ db.reports, r.siteID = r'.siteID →
    db.reportOrder r = db.reportOrder r' → textEq r.reportTypeCode r'.reportTypeCode = true →
    r.profileID = r'.profileID → r = r'

instance : Decidable db.ReportsDistinct :=
  inferInstanceAs (Decidable (∀ r ∈ db.reports, ∀ r' ∈ db.reports, r.siteID = r'.siteID →
    db.reportOrder r = db.reportOrder r' → textEq r.reportTypeCode r'.reportTypeCode = true →
    r.profileID = r'.profileID → r = r'))

def NamesFit (queryID : ℤ) : Prop :=
  (((db.queryOf (some queryID)).2.1.bind (·.name)).getD []).length ≤ 30 ∧
    (((db.queryOf (some queryID)).2.2.bind (·.name)).getD []).length ≤ 30

/-- What a stored report looks like: it is for an order of its user, its type code is spelled as
in `ReportType`, and the search does not lose it. -/
structure ReportOk (r : ReportRow) : Prop where
  order : ∃ oi ∈ db.orderItems, oi.siteID = r.siteID ∧ oi.id = r.orderItemID ∧
    ∃ o ∈ db.orders, o.siteID = r.siteID ∧ o.id = oi.orderID ∧ o.userID.getD 0 = r.userID
  type : ∃ rt ∈ db.reportTypes, rt.siteID = r.siteID ∧ rt.typeCode = r.reportTypeCode
  profileID : r.profileID.length ≤ 11
  state : (r.state.getD []).length ≤ 2
  names : db.NamesFit r.queryID

/-- The type code is spelled as stored, the profile id has 11 characters, and the names fit. -/
structure SpelledAsStored (siteID : ℕ) (c : ReportCall) : Prop where
  typeCode : ∀ code, c.typeCode = some code → ∀ rt ∈ db.reportTypes, rt.siteID = siteID →
    textEq rt.typeCode code = true → rt.typeCode = code
  profileID : c.profileID.length = 11
  names : db.NamesFit c.queryID

end Model

variable {db : Db} {r : ReportRow} {siteID : ℕ}

theorem reportOrder_eq (hk : db.ReportKeys) {oi : OrderItemRow}
    (hoi : oi ∈ db.orderItems) (hs : oi.siteID = r.siteID) (hid : oi.id = r.orderItemID) :
    db.reportOrder r = some oi.orderID := by
  unfold reportOrder
  rw [hk.orderItems.find?_eq hoi (by simp [hs, hid]) fun b _ hb => by simpa [hs, hid] using hb]
  rfl

theorem mem_reportMatches {f : ReportFilters} {r r' : ReportRow} (h : r' ∈ db.reportMatches f r) :
    r' = r := by
  simp only [reportMatches, mem_flatMap, mem_map] at h
  obtain ⟨⟨a, oi⟩, ha, q, -, rfl⟩ := h
  simpa using mem_leftJoin ha

theorem mem_spReportSearch {userID k : ℤ} {f : ReportFilters}
    (h : k ∈ db.spReportSearch siteID userID f) :
    ∃ r ∈ db.reports, r.siteID = siteID ∧ r.id = k := by
  simp only [spReportSearch, mem_map, mem_flatMap, mem_filter, Bool.and_eq_true,
    decide_eq_true_eq] at h
  obtain ⟨r', ⟨r, ⟨hr, hs, -⟩, hr'⟩, rfl⟩ := h
  obtain rfl := mem_reportMatches hr'
  exact ⟨r', hr, hs, rfl⟩

theorem spReportSearch_finds (hk : db.ReportKeys) (hr : r ∈ db.reports)
    (hok : db.ReportOk r) {orderID : ℤ} (ho : db.reportOrder r = some orderID) :
    r.id ∈ db.spReportSearch r.siteID r.userID { orderID := some orderID } := by
  obtain ⟨oi, hoi, hs, hid, -⟩ := hok.order
  rw [reportOrder_eq hk hoi hs hid, Option.some.injEq] at ho
  simp only [spReportSearch, mem_map, mem_flatMap, mem_filter, Bool.and_eq_true, decide_eq_true_eq]
  refine ⟨r, ⟨r, ⟨hr, rfl, ?_⟩, ?_⟩, rfl⟩
  · split_ifs <;> rfl
  · simp only [reportMatches, mem_flatMap, mem_map, queryNames_eq hk]
    refine ⟨(r, some oi), some_mem_leftJoin (by simp) hoi (by simp [hid]),
      db.queryOf (some r.queryID), ?_, rfl⟩
    have hinit : (((db.queryOf (some r.queryID)).1.bind (·.middleInitial)).getD []).length ≤ 1 := by
      rcases hq : (db.queryOf (some r.queryID)).1 with _ | sr
      · simp
      · exact hk.initials sr (mem_of_find?_eq_some hq)
    have hprofile : textFilter 11 (some r.profileID) none = true := textFilter_none hok.profileID
    simp [hprofile, textFilter_none hok.state, textFilter_none hok.names.1,
      textFilter_none hok.names.2, textFilter_none hinit, ho]

theorem reportTypeCache_reads (hk : db.ReportKeys) (siteID : ℕ) (code : Text) :
    ((db.reportTypeCache siteID).getFromDB [code]).head? = db.reportTypeOf siteID code := by
  have : (db.reportTypeCache siteID).getFromDB [code]
      = db.reportTypes.filter fun rt => rt.siteID = siteID && textEq rt.typeCode code := by
    simp only [reportTypeCache, spReportTypeGet]
    induction db.reportTypes with
    | nil => rfl
    | cons rt rest ih =>
      by_cases hs : rt.siteID = siteID <;> cases hc : textEq rt.typeCode code <;>
        simp [hs, hc, ih, -map_const', -List.map_const]
  rw [this, filter_types_eq hk]
  cases db.reportTypeOf siteID code <;> rfl

theorem criminalCheck_ok {typeCode state : Option Text} {p p' : Profile}
    (h : db.criminalCheck typeCode state p = .ok p') : ∃ code, typeCode = some code := by
  rcases typeCode with _ | code
  · cases h
  · exact ⟨code, rfl⟩

theorem lt_nextReportID {now : ℤ} (hr : r ∈ db.reports) : r.id < db.nextReportID now :=
  lt_maxFrom_filter (mem_map_of_mem hr)

theorem reportItem_some {orderID : ℤ} {oi : OrderItemRow}
    (h : db.reportItem siteID orderID = some oi) :
    oi ∈ db.orderItems ∧ oi.siteID = siteID ∧ oi.orderID = orderID := by
  obtain ⟨⟨oi', p⟩, hl, rfl⟩ := Option.map_eq_some_iff.1 h
  obtain ⟨hm, hp⟩ := selectLast_mem hl
  simp only [Bool.and_eq_true, decide_eq_true_eq] at hp
  exact ⟨(mem_join.1 hm).1, hp.1⟩

def addReport (db : Db) (r : ReportRow) : Db := { db with reports := db.reports ++ [r] }

theorem spReportCreate_ok {now : ℤ} {userID orderID queryID id : ℤ}
    {profileID code json html : Text} {state : Option Text} {db' : Db}
    (h : db.spReportCreate now siteID userID orderID queryID profileID state code json html
      = .ok (id, db')) :
    ∃ r oi, db' = db.addReport r ∧ r.id = id ∧ id = db.nextReportID now ∧ r.siteID = siteID ∧
      r.userID = userID ∧ r.queryID = queryID ∧ r.profileID = char 11 profileID ∧
      r.state = state.map (char 2) ∧ r.reportTypeCode = varchar 3 code ∧
      db.reportItem siteID orderID = some oi ∧ r.orderItemID = oi.id := by
  unfold spReportCreate at h
  split at h
  · cases h
  · rename_i oi hoi
    dsimp only at h
    split_ifs at h
    cases h
    exact ⟨_, oi, rfl, rfl, rfl, rfl, rfl, rfl, rfl, rfl, rfl, hoi, rfl⟩

theorem addReport_keys (hk : db.ReportKeys)
    (hr : ∀ r' ∈ db.reports, r'.id < r.id) : (db.addReport r).ReportKeys := by
  refine ⟨⟨hk.orders, hk.ordersExternal, hk.orderItems, hk.products, hk.skus, hk.searchResults,
    hk.visits, hk.itemOrder, hk.productSku⟩, ?_, hk.reportTypes, hk.firstNames, hk.lastNames,
    hk.initials, hk.typeCodes⟩
  refine hk.reports.append (nodup_singleton _) fun a ha b hb hab => ?_
  obtain rfl := mem_singleton.1 hb
  have := hr a ha
  simp only [Prod.mk.injEq] at hab
  omega

theorem reportOf_addReport {r r' : ReportRow} (hr : r ∈ db.reports) :
    (db.addReport r').reportOf r.siteID r.id = db.reportOf r.siteID r.id := by
  have hsome : (db.reports.find? fun r' => r'.siteID = r.siteID && r'.id = r.id).isSome := by
    rw [find?_isSome]
    exact ⟨r, hr, by simp⟩
  have hfind : (db.addReport r').reports.find? (fun r' => r'.siteID = r.siteID && r'.id = r.id)
      = db.reports.find? fun r' => r'.siteID = r.siteID && r'.id = r.id := by
    show (db.reports ++ [r']).find? _ = _
    rw [find?_append, Option.or_of_isSome hsome]
  unfold reportOf
  rw [hfind]
  rfl

theorem reportOk_addReport {r r' : ReportRow} (h : db.ReportOk r) : (db.addReport r').ReportOk r :=
  ⟨h.order, h.type, h.profileID, h.state, h.names⟩

theorem typeCode_eq_of_textEq (hk : db.ReportKeys) {rt rt' : ReportTypeRow}
    (h : rt ∈ db.reportTypes) (h' : rt' ∈ db.reportTypes) (hs : rt.siteID = rt'.siteID)
    (he : textEq rt.typeCode rt'.typeCode = true) : rt = rt' :=
  hk.reportTypes.eq h h' (by rw [hs, textEq_iff.1 he])

end Db

structure ReportWorld extends OrderWorld where
  reportCache : ℕ → Store ℤ DBReport
  queryCache : Store ℤ DBQuery
  reportTypeCache : ℕ → Store Text ReportTypeRow

/-- The item whose report type `Report.Create` expects. -/
def DBOrder.expectedItem (o : DBOrder) : Option DBOrderItem :=
  o.items.find? (·.reportTypeCode.isSome)

inductive Attempt where
  | failed (e : Exn)
  | noProfile
  | ready (query : DBQuery) (reportType : ReportTypeRow) (profile : Profile)

namespace ReportWorld

section Model

variable (w : ReportWorld) (env : ReportEnv) (ctx : CallContext)

def reportGet (keys : List ℤ) : ReportWorld × List Report :=
  let r := (w.db.siteReportCache ctx.siteID).getMany false keys (w.reportCache ctx.siteID)
  ({ w with reportCache := Function.update w.reportCache ctx.siteID r.1 },
    r.2.map Db.renderReport)

def reportSearch (f : ReportFilters) : ReportWorld × List Report :=
  w.reportGet ctx (w.db.spReportSearch ctx.siteID ctx.authorizedUserID f)

def reportList (reportIDs : List ℤ) : ReportWorld × List Report :=
  w.reportGet ctx (w.db.spReportValidateAccess ctx.authorizedUserID ctx.siteID reportIDs)

def lookupOrder (orderID : ℤ) : ReportWorld × Option DBOrder :=
  let r := (w.db.siteOrderCache ctx.siteID).get false orderID (w.orderCache ctx.siteID)
  ({ w with toOrderWorld := w.setCache ctx.siteID r.1 }, r.2)

def refreshQuery (queryID : ℤ) : ReportWorld × Option DBQuery :=
  let r := w.db.queryCache.get true queryID w.queryCache
  ({ w with queryCache := r.1 }, r.2)

def refreshReportType (code : Text) : ReportWorld × Option ReportTypeRow :=
  let r := (w.db.reportTypeCache ctx.siteID).get true code (w.reportTypeCache ctx.siteID)
  ({ w with reportTypeCache := Function.update w.reportTypeCache ctx.siteID r.1 }, r.2)

def fetchProfile (c : ReportCall) (isRetry : Bool) (query : Option DBQuery)
    (reportType : Option ReportTypeRow) : Attempt :=
  match reportType, query with
  | some rt, some q =>
    match env.getProfile isRetry c.profileID rt.profileAttributes q.state with
    | .error e => .failed e
    | .ok none => .noProfile
    | .ok (some p) => .ready q rt p
  | _, _ => .failed .nullReference

def attempt (c : ReportCall) (isRetry : Bool) : ReportWorld × Attempt :=
  let (w, dbOrder) := w.lookupOrder ctx c.orderID
  match dbOrder with
  | none => (w, .failed .orderNotFound)
  | some dbOrder =>
    if dbOrder.userID ≠ ctx.authorizedUserID then (w, .failed .orderNotFound)
    else
      let (w, query) := w.refreshQuery c.queryID
      let (w, reports) := w.reportSearch ctx { orderID := some c.orderID }
      if reports.any fun r => some r.reportTypeCode = c.typeCode && r.profileID = c.profileID then
        (w, .failed .orderAlreadyFulfilled)
      else
        let expected := dbOrder.expectedItem.bind (·.reportTypeCode)
        match c.typeCode.or expected with
        | none => (w, .failed .reportTypeCodeRequired)
        | some code =>
          let (w, reportType) := w.refreshReportType ctx code
          (w, fetchProfile env c isRetry query reportType)

def fulfil (c : ReportCall) (reportID : ℤ) : ReportWorld × Except Exn (Option Report) :=
  match env.cartUpdate with
  | .error e => (w, .error e)
  | .ok _ =>
    let r := w.orderGet ctx [c.orderID]
    let w := { w with toOrderWorld := r.1 }
    match r.2 with
    | .error e => (w, .error e)
    | .ok [] => (w, .error .nullReference)
    | .ok (order :: _) =>
      match order.items with
      | [] => (w, .error .indexOutOfRange)
      | item :: _ =>
        match env.debitOrder order item with
        | .error e => (w, .error e)
        | .ok _ =>
          let r := w.reportGet ctx [reportID]
          (r.1, .ok r.2.head?)

def compose (c : ReportCall) (q : DBQuery) (p : Profile) : Except Exn (Text × Text) := do
  let p ← connectPhones p
  let p ← w.db.criminalCheck c.typeCode q.state p
  env.serialize p

def store (c : ReportCall) (q : DBQuery) (rt : ReportTypeRow) (p : Profile) :
    ReportWorld × Except Exn (Option Report) :=
  match w.compose env c q p with
  | .error e => (w, .error e)
  | .ok (json, html) =>
    match w.db.spReportCreate env.now ctx.siteID ctx.authorizedUserID c.orderID c.queryID
        c.profileID q.state rt.typeCode json html with
    | .error e => (w, .error e)
    | .ok (id, db) => { w with db := db }.fulfil env ctx c id

def conclude (c : ReportCall) (r : ReportWorld × Attempt) :
    ReportWorld × Except Exn (Option Report) :=
  match r.2 with
  | .failed e => (r.1, .error e)
  | .noProfile => (r.1, .error .profileNotFound)
  | .ready q rt p => r.1.store env ctx c q rt p

/-- `Report.Create`: a first try without a profile is made once more. -/
def reportCreate (c : ReportCall) : ReportWorld × Except Exn (Option Report) :=
  let r := w.attempt env ctx c false
  match r.2 with
  | .noProfile =>
    match env.deleteCachedProfile with
    | .error e => (r.1, .error e)
    | .ok _ => conclude env ctx c (r.1.attempt env ctx c true)
  | _ => conclude env ctx c r

end Model

structure Inv (w : ReportWorld) : Prop where
  keys : w.db.ReportKeys
  orders : ∀ s, w.OrdersCached s
  reports : ∀ s, Coherent (w.db.reportOf s) (w.reportCache s)
  known : ∀ s k v, w.reportCache s k = some v → ∃ r ∈ w.db.reports, r.siteID = s ∧ r.id = k
  stored : ∀ r ∈ w.db.reports, w.db.ReportOk r
  distinct : w.db.ReportsDistinct

variable {w : ReportWorld} {env : ReportEnv} {ctx : CallContext} {c : ReportCall} {r : ReportRow}
  {rt : ReportTypeRow}

section

variable (hI : w.Inv)
include hI

theorem reportGet_inv {keys : List ℤ}
    (hkeys : ∀ k ∈ keys, ∃ r ∈ w.db.reports, r.siteID = ctx.siteID ∧ r.id = k) :
    (w.reportGet ctx keys).1.Inv := by
  obtain ⟨-, hadds⟩ := getMany_spec (s := w.reportCache ctx.siteID)
    (Db.siteReportCache_reads hI.keys ctx.siteID) false keys
  refine ⟨hI.keys, hI.orders, fun s => ?_, fun s k v h => ?_, hI.stored, hI.distinct⟩
  · by_cases hs : s = ctx.siteID
    · subst hs
      simpa [reportGet] using (hI.reports ctx.siteID).adds hadds
    · simpa [reportGet, hs] using hI.reports s
  · by_cases hs : s = ctx.siteID
    · subst hs
      simp only [reportGet, Function.update_self] at h
      rcases hadds k v h with h | ⟨hk, -⟩
      · exact hI.known ctx.siteID k v h
      · exact hkeys k hk
    · simp only [reportGet, Function.update_of_ne hs] at h
      exact hI.known s k v h

theorem reportGet_eq (keys : List ℤ) :
    (w.reportGet ctx keys).2
      = ((distinct keys).filterMap (w.db.reportOf ctx.siteID)).map Db.renderReport := by
  simp only [reportGet, (getMany_coherent (Db.siteReportCache_reads hI.keys ctx.siteID)
    (hI.reports ctx.siteID) false keys).1]

theorem lookupOrder_inv (ctx : CallContext) (k : ℤ) :
    (w.lookupOrder ctx k).1.Inv ∧ (w.lookupOrder ctx k).2 = w.db.orderOf ctx.siteID k := by
  obtain ⟨hans, hadds⟩ := get_spec (s := w.orderCache ctx.siteID)
    (Db.siteOrderCache_reads hI.keys.toOrderKeys ctx.siteID) false k
  exact ⟨⟨hI.keys, OrderWorld.OrdersCached.setCache hI.orders hadds, hI.reports, hI.known,
    hI.stored, hI.distinct⟩, hans.trans ((hI.orders ctx.siteID).answer_eq false k)⟩

theorem refreshQuery_inv (k : ℤ) : (w.refreshQuery k).1.Inv :=
  ⟨hI.keys, hI.orders, hI.reports, hI.known, hI.stored, hI.distinct⟩

theorem refreshReportType_inv (code : Text) : (w.refreshReportType ctx code).1.Inv :=
  ⟨hI.keys, hI.orders, hI.reports, hI.known, hI.stored, hI.distinct⟩

theorem refreshReportType_eq (code : Text) :
    (w.refreshReportType ctx code).2 = w.db.reportTypeOf ctx.siteID code := by
  have := Db.reportTypeCache_reads hI.keys ctx.siteID code
  simp only [refreshReportType, EntityCache.get, if_true, remove_self]
  rw [← this]
  rcases (w.db.reportTypeCache ctx.siteID).getFromDB [code] with _ | ⟨rt, rest⟩ <;> rfl

theorem reportSearch_inv (f : ReportFilters) : (w.reportSearch ctx f).1.Inv :=
  reportGet_inv hI fun _ hk => Db.mem_spReportSearch hk

theorem reportSearch_finds (hr : r ∈ w.db.reports)
    (hs : r.siteID = ctx.siteID) (hu : r.userID = ctx.authorizedUserID) {orderID : ℤ}
    (ho : w.db.reportOrder r = some orderID) :
    ∃ e ∈ (w.reportSearch ctx { orderID := some orderID }).2,
      e.reportTypeCode = r.reportTypeCode ∧ e.profileID = r.profileID := by
  have hok := hI.stored r hr
  obtain ⟨rt, hrt, hrs, hrc⟩ := hok.type
  have htype : w.db.reportTypeOf r.siteID r.reportTypeCode ≠ none := by
    intro h
    have := find?_eq_none.1 h rt hrt
    simp [hrs, hrc] at this
  obtain ⟨rt', hrt'⟩ := Option.ne_none_iff_exists'.1 htype
  obtain ⟨e, he, hec, hep⟩ := Db.reportOf_eq hI.keys hr hrt'
  have hfind := Db.spReportSearch_finds hI.keys hr hok ho
  rw [hs, hu] at hfind
  refine ⟨Db.renderReport e, ?_, hec, hep⟩
  rw [reportSearch, reportGet_eq hI]
  refine mem_map_of_mem (mem_filterMap.2 ⟨r.id, mem_distinct.2 hfind, ?_⟩)
  rw [← hs]
  exact he

end

structure Passed (w : ReportWorld) (ctx : CallContext) (c : ReportCall) (rt : ReportTypeRow) :
    Prop where
  order : ∃ o ∈ w.db.orders, o.siteID = ctx.siteID ∧ o.id = c.orderID ∧
    o.userID.getD 0 = ctx.authorizedUserID
  fresh : ∀ r ∈ w.db.reports, r.siteID = ctx.siteID → r.userID = ctx.authorizedUserID →
    w.db.reportOrder r = some c.orderID →
      ¬ (some r.reportTypeCode = c.typeCode ∧ r.profileID = c.profileID)
  type : ∀ code, c.typeCode = some code → w.db.reportTypeOf ctx.siteID code = some rt

theorem fetchProfile_ready {isRetry : Bool} {query : Option DBQuery}
    {reportType : Option ReportTypeRow} {q : DBQuery} {p : Profile}
    (h : fetchProfile env c isRetry query reportType = .ready q rt p) : reportType = some rt := by
  unfold fetchProfile at h
  split at h
  · split at h
    · cases h
    · cases h
    · cases h
      rfl
  · cases h

section

variable (hI : w.Inv)
include hI

theorem attempt_spec (env : ReportEnv) (ctx : CallContext) (c : ReportCall)
    (isRetry : Bool) :
    (w.attempt env ctx c isRetry).1.Inv ∧ (w.attempt env ctx c isRetry).1.db = w.db ∧
      ∀ q rt p, (w.attempt env ctx c isRetry).2 = .ready q rt p → w.Passed ctx c rt := by
  obtain ⟨h1, horder⟩ := lookupOrder_inv hI ctx c.orderID
  have hdb1 : (w.lookupOrder ctx c.orderID).1.db = w.db := rfl
  unfold attempt
  rcases hl : w.lookupOrder ctx c.orderID with ⟨w1, dbOrder⟩
  rw [hl] at h1 horder hdb1
  rcases dbOrder with _ | dbOrder
  · exact ⟨h1, hdb1, fun _ _ _ h => by cases h⟩
  dsimp only
  split_ifs with hu hany
  · exact ⟨h1, hdb1, fun _ _ _ h => by cases h⟩
  · have h2 := refreshQuery_inv h1 c.queryID
    exact ⟨reportSearch_inv h2 _, hdb1, fun _ _ _ h => by cases h⟩
  · have h2 := refreshQuery_inv h1 c.queryID
    have h3 :
      ((w1.refreshQuery c.queryID).1.reportSearch ctx { orderID := some c.orderID }).1.Inv :=
      reportSearch_inv h2 _
    have hdb3 : ((w1.refreshQuery c.queryID).1.reportSearch ctx
        { orderID := some c.orderID }).1.db = w.db := hdb1
    split
    · exact ⟨h3, hdb3, fun _ _ _ h => by cases h⟩
    · rename_i code hcode
      refine ⟨refreshReportType_inv h3 code, hdb3, fun q rt p h => ⟨?_, fun r hr hs hru ho hm => ?_,
        fun code' hc => ?_⟩⟩
      · obtain ⟨o, ho, hs, hid, rfl⟩ := Db.orderOf_some horder.symm
        simp only [ne_eq, not_not] at hu
        exact ⟨o, ho, hs, hid, hu⟩
      · have hdb2 : (w1.refreshQuery c.queryID).1.db = w.db := hdb1
        rw [← hdb2] at hr ho
        obtain ⟨e, he, hec, hep⟩ := reportSearch_finds h2 hr hs hru ho
        refine hany (any_eq_true.2 ⟨e, he, ?_⟩)
        simp only [Bool.and_eq_true, decide_eq_true_eq]
        exact ⟨hec ▸ hm.1, hep ▸ hm.2⟩
      · have := fetchProfile_ready h
        rw [refreshReportType_eq h3, hdb3] at this
        rw [hc, Option.some_or, Option.some.injEq] at hcode
        rw [hcode]
        exact this

theorem attempt_fulfilled (isRetry : Bool) {o : OrderRow} (ho : o ∈ w.db.orders)
    (hs : o.siteID = ctx.siteID) (hid : o.id = c.orderID)
    (hu : o.userID.getD 0 = ctx.authorizedUserID) (hr : r ∈ w.db.reports)
    (hrs : r.siteID = ctx.siteID) (hro : w.db.reportOrder r = some c.orderID)
    (hru : r.userID = ctx.authorizedUserID) (hc : some r.reportTypeCode = c.typeCode)
    (hp : r.profileID = c.profileID) :
    (w.attempt env ctx c isRetry).2 = .failed .orderAlreadyFulfilled := by
  obtain ⟨h1, horder⟩ := lookupOrder_inv hI ctx c.orderID
  have hdb1 : (w.lookupOrder ctx c.orderID).1.db = w.db := rfl
  unfold attempt
  rcases hl : w.lookupOrder ctx c.orderID with ⟨w1, dbOrder⟩
  rw [hl] at h1 horder hdb1
  rw [← hs, ← hid, Db.orderOf_eq hI.keys.toOrderKeys ho] at horder
  subst horder
  dsimp only
  rw [if_neg (by simpa [Db.readOrder] using hu), if_pos]
  have h2 := refreshQuery_inv h1 c.queryID
  have hdb2 : (w1.refreshQuery c.queryID).1.db = w.db := hdb1
  rw [← hdb2] at hr hro
  obtain ⟨e, he, hec, hep⟩ := reportSearch_finds h2 hr hrs hru hro
  refine any_eq_true.2 ⟨e, he, ?_⟩
  simp only [Bool.and_eq_true, decide_eq_true_eq]
  exact ⟨hec ▸ hc, hep ▸ hp⟩

theorem orderGet_inv (ctx : CallContext) (keys : List ℤ) :
    ({ w with toOrderWorld := (w.orderGet ctx keys).1 } : ReportWorld).Inv := by
  obtain ⟨-, hadds⟩ := getMany_spec (s := w.orderCache ctx.siteID)
    (Db.siteOrderCache_reads hI.keys.toOrderKeys ctx.siteID) false keys
  exact ⟨hI.keys, OrderWorld.OrdersCached.setCache hI.orders hadds, hI.reports, hI.known,
    hI.stored, hI.distinct⟩

theorem fulfil_inv {id : ℤ}
    (hid : ∃ r ∈ w.db.reports, r.siteID = ctx.siteID ∧ r.id = id) :
    (w.fulfil env ctx c id).1.Inv := by
  have hI' := orderGet_inv hI ctx [c.orderID]
  unfold fulfil
  dsimp only
  repeat' split
  · exact hI
  all_goals try exact hI'
  exact reportGet_inv hI' fun k hk => mem_singleton.1 hk ▸ hid

theorem addReport_inv (hp : w.Passed ctx c rt)
    (hc : w.db.SpelledAsStored ctx.siteID c) {code : Text} (hcode : c.typeCode = some code)
    {oi : OrderItemRow} (hlt : ∀ r' ∈ w.db.reports, r'.id < r.id)
    (hs : r.siteID = ctx.siteID) (hu : r.userID = ctx.authorizedUserID)
    (hq : r.queryID = c.queryID) (hprofile : r.profileID = char 11 c.profileID)
    (hstate : (r.state.getD []).length ≤ 2) (htype : r.reportTypeCode = varchar 3 rt.typeCode)
    (hoi : w.db.reportItem ctx.siteID c.orderID = some oi) (hid : r.orderItemID = oi.id) :
    ({ w with db := w.db.addReport r } : ReportWorld).Inv := by
  obtain ⟨o, ho, hos, hoid, hou⟩ := hp.order
  obtain ⟨hoim, hois, hoio⟩ := Db.reportItem_some hoi
  obtain ⟨hrt, hrts, hrtc⟩ := Db.reportTypeOf_some (hp.type code hcode)
  have hcode' : rt.typeCode = code := hc.typeCode code hcode rt hrt hrts hrtc
  have htype' : r.reportTypeCode = rt.typeCode := by
    rw [htype, varchar, take_of_length_le (hI.keys.typeCodes rt hrt)]
  have horder : w.db.reportOrder r = some c.orderID := by
    rw [Db.reportOrder_eq hI.keys hoim (hois.trans hs.symm) hid.symm, hoio]
  have hnew : w.db.ReportOk r := by
    refine ⟨⟨oi, hoim, hois.trans hs.symm, hid.symm, o, ho, hos.trans hs.symm,
      hoid.trans hoio.symm, hou.trans hu.symm⟩, ⟨rt, hrt, hrts.trans hs.symm, htype'.symm⟩, ?_,
      hstate, hq ▸ hc.names⟩
    rw [hprofile, length_char]
  have hold : ∀ r' ∈ w.db.reports, r'.siteID = r.siteID → w.db.reportOrder r' = w.db.reportOrder r →
      textEq r'.reportTypeCode r.reportTypeCode = true → r'.profileID ≠ r.profileID := by
    intro r' hr' hs' ho' ht' hp'
    have hok := hI.stored r' hr'
    obtain ⟨oi', hoi', h1, h2, o', ho'm, h3, h4, h5⟩ := hok.order
    rw [Db.reportOrder_eq hI.keys hoi' h1 h2, horder, Option.some.injEq] at ho'
    have hoo : o' = o := hI.keys.orders.eq ho'm ho (by rw [h3, hs', hs, hos, h4, ho', hoid])
    obtain ⟨rt', hrt', hrts', hrtc'⟩ := hok.type
    have hrr : rt' = rt := by
      refine Db.typeCode_eq_of_textEq hI.keys hrt' hrt (by rw [hrts', hs', hs, hrts]) ?_
      rw [hrtc', ← htype']
      exact ht'
    refine hp.fresh r' hr' (hs'.trans hs) ?_ ?_ ⟨?_, ?_⟩
    · rw [← h5, hoo, hou]
    · rw [Db.reportOrder_eq hI.keys hoi' h1 h2, ho']
    · rw [hcode, ← hrtc', hrr, hcode']
    · rw [hp', hprofile, char_of_length hc.profileID]
  refine ⟨Db.addReport_keys hI.keys hlt, hI.orders, fun s k v h => ?_, fun s k v h => ?_, ?_, ?_⟩
  · obtain ⟨r', hr', rfl, rfl⟩ := hI.known s k v h
    have := hI.reports _ _ v h
    show Agrees ((w.db.addReport r).reportOf r'.siteID) r'.id v
    cases v <;> simpa only [Agrees, Db.reportOf_addReport hr'] using this
  · obtain ⟨r', hr', h'⟩ := hI.known s k v h
    exact ⟨r', mem_append_left _ hr', h'⟩
  · intro r' hr'
    rcases mem_append.1 hr' with hr' | hr'
    · exact Db.reportOk_addReport (hI.stored r' hr')
    · obtain rfl := mem_singleton.1 hr'
      exact Db.reportOk_addReport hnew
  · intro a ha b hb hab hoab ht hpab
    rcases mem_append.1 ha with ha' | ha' <;> rcases mem_append.1 hb with hb' | hb'
    · exact hI.distinct a ha' b hb' hab hoab ht hpab
    · obtain rfl := mem_singleton.1 hb'
      exact absurd hpab (hold a ha' hab hoab ht)
    · obtain rfl := mem_singleton.1 ha'
      exact absurd hpab.symm (hold b hb' hab.symm hoab.symm (textEq_symm ht))
    · rw [mem_singleton.1 ha', mem_singleton.1 hb']

end

theorem compose_ok {q : DBQuery} {p : Profile} {t : Text × Text}
    (h : w.compose env c q p = .ok t) : ∃ code, c.typeCode = some code := by
  obtain ⟨p', -, h⟩ := bind_ok_iff.1 h
  obtain ⟨p'', h, -⟩ := bind_ok_iff.1 h
  exact Db.criminalCheck_ok h

theorem store_inv (hI : w.Inv) {q : DBQuery} {p : Profile}
    (hp : w.Passed ctx c rt) (hc : w.db.SpelledAsStored ctx.siteID c) :
    (w.store env ctx c q rt p).1.Inv := by
  unfold store
  split
  · exact hI
  · rename_i json html hcomp
    obtain ⟨code, hcode⟩ := compose_ok hcomp
    split
    · exact hI
    · rename_i id db' hcreate
      obtain ⟨r, oi, rfl, hrid, hid, hs, hu, hq, hprofile, hstate, htype, hoi, hoid⟩ :=
        Db.spReportCreate_ok hcreate
      have hstate' : (r.state.getD []).length ≤ 2 := by
        rw [hstate]
        cases q.state <;> simp [length_char]
      refine fulfil_inv (addReport_inv hI hp hc hcode (fun r' hr' => ?_) hs hu hq hprofile hstate'
        htype hoi hoid) ⟨r, mem_append_right _ (by simp), hs, hrid⟩
      rw [hrid, hid]
      exact Db.lt_nextReportID hr'

theorem conclude_inv (hI : w.Inv) (hc : w.db.SpelledAsStored ctx.siteID c) (isRetry : Bool) :
    (conclude env ctx c (w.attempt env ctx c isRetry)).1.Inv := by
  obtain ⟨hI', hdb, hready⟩ := attempt_spec hI env ctx c isRetry
  unfold conclude
  split
  · exact hI'
  · exact hI'
  · rename_i q rt p h
    have hp := hready q rt p h
    exact store_inv hI' ⟨hdb ▸ hp.order, hdb ▸ hp.fresh, hdb ▸ hp.type⟩ (hdb ▸ hc)

theorem reportCreate_inv (hI : w.Inv) (hc : w.db.SpelledAsStored ctx.siteID c) :
    (w.reportCreate env ctx c).1.Inv := by
  obtain ⟨hI', hdb, -⟩ := attempt_spec hI env ctx c false
  unfold reportCreate
  dsimp only
  split
  · split
    · exact hI'
    · exact conclude_inv hI' (hdb ▸ hc) true
  · exact conclude_inv hI hc false

/-- A second report for the order, type and profile of one there is, asked for by the owner of the
order and spelled as stored, is refused. -/
theorem reportCreate_repeated (hI : w.Inv) (hc : w.db.SpelledAsStored ctx.siteID c) {code : Text}
    (hcode : c.typeCode = some code) {o : OrderRow} (ho : o ∈ w.db.orders)
    (hs : o.siteID = ctx.siteID) (hid : o.id = c.orderID)
    (hu : o.userID = some ctx.authorizedUserID) (hr : r ∈ w.db.reports)
    (hrs : r.siteID = ctx.siteID) (hro : w.db.reportOrder r = some c.orderID)
    (hrt : textEq r.reportTypeCode code = true) (hrp : r.profileID = c.profileID) :
    (w.reportCreate env ctx c).2 = .error .orderAlreadyFulfilled := by
  have hok := hI.stored r hr
  obtain ⟨oi, hoi, h1, h2, o', ho', h3, h4, h5⟩ := hok.order
  have hoo : o' = o := by
    rw [Db.reportOrder_eq hI.keys hoi h1 h2, Option.some.injEq] at hro
    exact hI.keys.orders.eq ho' ho (by rw [h3, hrs, hs, h4, hro, hid])
  obtain ⟨rt, hrtm, hrts, hrtc⟩ := hok.type
  have hrc : r.reportTypeCode = code := by
    rw [← hrtc]
    exact hc.typeCode code hcode rt hrtm (hrts.trans hrs) (hrtc ▸ hrt)
  have hfail : (w.attempt env ctx c false).2 = .failed .orderAlreadyFulfilled :=
    attempt_fulfilled hI false ho hs hid (by rw [hu]; rfl) hr hrs hro
      (by rw [← h5, hoo, hu]; rfl) (by rw [hrc, hcode]) hrp
  unfold reportCreate conclude
  simp only [hfail]

structure Step where
  ctx : CallContext
  env : ReportEnv
  call : ReportCall

def step (w : ReportWorld) (a : Step) : ReportWorld := (w.reportCreate a.env a.ctx a.call).1

theorem run_step_inv {w₀ : ReportWorld} {steps : List Step} (hI : w₀.Inv)
    (hrun : RunOk step (fun w a => w.db.SpelledAsStored a.ctx.siteID a.call) w₀ steps) :
    (run step w₀ steps).Inv :=
  run_inv (fun _ _ hI hc => reportCreate_inv hI hc) hI hrun

/-- After any run of calls that spell type and profile as stored, no two reports are for one order,
type and profile, and one more call for those of a report there is, by the owner of the order, ends
with the order already fulfilled. -/
theorem reports_distinct {w₀ : ReportWorld} {steps : List Step} (hI : w₀.Inv)
    (hrun : RunOk step (fun w a => w.db.SpelledAsStored a.ctx.siteID a.call) w₀ steps) :
    (run step w₀ steps).db.ReportsDistinct ∧
    ∀ env ctx c code, (run step w₀ steps).db.SpelledAsStored ctx.siteID c → c.typeCode = some code →
      ∀ o ∈ (run step w₀ steps).db.orders, o.siteID = ctx.siteID → o.id = c.orderID →
        o.userID = some ctx.authorizedUserID →
      ∀ r ∈ (run step w₀ steps).db.reports, r.siteID = ctx.siteID →
        (run step w₀ steps).db.reportOrder r = some c.orderID →
        textEq r.reportTypeCode code = true → r.profileID = c.profileID →
      ((run step w₀ steps).reportCreate env ctx c).2 = .error .orderAlreadyFulfilled := by
  have hI' := run_step_inv hI hrun
  refine ⟨hI'.distinct, ?_⟩
  intro env ctx c code hc hcode o ho hs hid hu r hr hrs hro hrt hrp
  exact reportCreate_repeated hI' hc hcode ho hs hid hu hr hrs hro hrt hrp

end ReportWorld

/-- A site with one order of user 8, for a product of report type `PL`, and one query. -/
def onePurchase : ReportWorld where
  db :=
    { orders := [{ siteID := 1, id := 1, externalID := some 500, userID := some 8 }]
      orderItems := [{ siteID := 1, id := 1, orderID := 1, productID := some 1 }]
      products := [{ siteID := 1, id := 1, skuID := 0, productExternalID := 7, price := 10000,
                     reportTypeCode := some "PL".toList }]
      skus := [{ siteID := 1, id := 0, categoryID := some 1 }]
      categories := [{ siteID := 1, id := 1, categoryName := "Reports".toList }]
      reportTypes := [{ siteID := 1, typeCode := "PL".toList }]
      searchResults := [{ id := 3, firstNameID := some 1, lastNameID := some 1 }]
      firstNames := [{ id := 1, name := some "ANN".toList }]
      lastNames := [{ id := 1, name := some "LEE".toList }] }
  orderCache := fun _ _ => none
  reportCache := fun _ _ => none
  queryCache := fun _ => none
  reportTypeCache := fun _ _ => none

theorem onePurchase_inv : onePurchase.Inv where
  keys := ⟨by decide, by decide, by decide, by decide, by decide, by decide, by decide⟩
  orders := fun _ _ _ h => by cases h
  reports := fun _ _ _ h => by cases h
  known := fun _ _ _ h => by cases h
  stored := fun _ h => by cases h
  distinct := by decide

def askReport (typeCode : String) : ReportWorld.Step where
  ctx := { siteID := 1, authorizedUserID := 8 }
  env := { getProfile := fun _ _ _ _ => .ok (some {}) }
  call := { typeCode := some typeCode.toList, orderID := 1, queryID := 3,
            profileID := "TWYHQLQMBBC".toList }

theorem askReport_spelled {db : Db} (ht : db.reportTypes = onePurchase.db.reportTypes)
    (hn : db.NamesFit 3) : db.SpelledAsStored 1 (askReport "PL").call where
  typeCode := by
    intro code hcode rt hrt _ _
    rw [ht] at hrt
    obtain rfl := mem_singleton.1 hrt
    simpa [askReport] using hcode
  profileID := rfl
  names := hn

theorem onePurchase_distinct :
    (run ReportWorld.step onePurchase [askReport "PL", askReport "PL"]).db.reports.length = 1 ∧
    (run ReportWorld.step onePurchase [askReport "PL", askReport "PL"]).db.ReportsDistinct := by
  have hrun : RunOk ReportWorld.step (fun w a => w.db.SpelledAsStored a.ctx.siteID a.call)
      onePurchase [askReport "PL", askReport "PL"] :=
    ⟨askReport_spelled rfl (by unfold Db.NamesFit; decide),
      askReport_spelled rfl (by unfold Db.NamesFit; decide), trivial⟩
  exact ⟨by decide, (ReportWorld.reports_distinct onePurchase_inv hrun).1⟩

/-- Asked for twice with its type in lower case, the report is created twice. -/
theorem twoReports :
    onePurchase.Inv ∧
    (run ReportWorld.step onePurchase [askReport "pl", askReport "pl"]).db.reports.map
        (fun r => (r.orderItemID, r.reportTypeCode, r.profileID))
      = [(1, "PL".toList, "TWYHQLQMBBC".toList), (1, "PL".toList, "TWYHQLQMBBC".toList)] ∧
    ¬ (run ReportWorld.step onePurchase [askReport "pl", askReport "pl"]).db.ReportsDistinct :=
  ⟨onePurchase_inv, by decide, by decide⟩

end AciX
