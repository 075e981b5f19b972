import AciX.Order.Readable
import AciX.Report.Access

/-!
# Reports that were not paid for

`Report.Create` stores the report first. Then it updates the cart, looks the order up and debits it,
and an exception on the way leaves the report where it is (`undebited_delivered`). `Stores` says
that a call comes to store a report, `Settles` that what follows succeeds: no report is handed out
undebited exactly if the one implies the other (`undelivered_iff`).
-/

namespace AciX

open EntityCache List

namespace ReportWorld

section Model

variable (w : ReportWorld) (env : ReportEnv) (ctx : CallContext) (c : ReportCall)

def orderOn (orderID : ℤ) : Option DBOrder :=
  EntityCache.answer (w.db.orderOf ctx.siteID) false (w.orderCache ctx.siteID) orderID

def reportsOn (orderID : ℤ) : List Report :=
  ((distinct (w.db.spReportSearch ctx.siteID ctx.authorizedUserID
      { orderID := some orderID })).filterMap
    (EntityCache.answer (w.db.reportOf ctx.siteID) false (w.reportCache ctx.siteID))).map
      Db.renderReport

def expectedCode (e : DBOrder) : Option Text := e.expectedItem.bind (·.reportTypeCode)

/-- The call is for an order of the caller that has no such report yet, a query and a type that
exist. -/
structure Accepts (e : DBOrder) (q : DBQuery) (rt : ReportTypeRow) : Prop where
  order : w.orderOn ctx c.orderID = some e
  owner : e.userID = ctx.authorizedUserID
  fresh : ∀ r ∈ w.reportsOn ctx c.orderID,
    ¬ (some r.reportTypeCode = c.typeCode ∧ r.profileID = c.profileID)
  query : (w.db.spQueryGet c.queryID).head? = some q
  type : ∃ code, c.typeCode.or (expectedCode e) = some code ∧
    w.db.reportTypeOf ctx.siteID code = some rt

def Finds (q : DBQuery) (rt : ReportTypeRow) (p : Profile) : Prop :=
  env.getProfile false c.profileID rt.profileAttributes q.state = .ok (some p) ∨
    env.getProfile false c.profileID rt.profileAttributes q.state = .ok none ∧
    env.deleteCachedProfile = .ok () ∧
    env.getProfile true c.profileID rt.profileAttributes q.state = .ok (some p)

def profileAnswer (q : DBQuery) (rt : ReportTypeRow) : Except Exn (Option Profile) :=
  match env.getProfile false c.profileID rt.profileAttributes q.state with
  | .ok none =>
    match env.deleteCachedProfile with
    | .error x => .error x
    | .ok _ => env.getProfile true c.profileID rt.profileAttributes q.state
  | r => r

def fulfilled : Bool :=
  (w.reportsOn ctx c.orderID).any fun r =>
    some r.reportTypeCode = c.typeCode && r.profileID = c.profileID

def answer (isRetry : Bool) (e : DBOrder) : Attempt :=
  if w.fulfilled ctx c then .failed .orderAlreadyFulfilled
  else
    match c.typeCode.or (expectedCode e) with
    | none => .failed .reportTypeCodeRequired
    | some code => fetchProfile env c isRetry (w.db.spQueryGet c.queryID).head?
        (w.db.reportTypeOf ctx.siteID code)

/-- The call comes to store a report on the order `e`. -/
def Stores (e : DBOrder) : Prop :=
  ∃ q rt p, w.Accepts ctx c e q rt ∧ Finds env c q rt p ∧ (∃ t, w.compose env c q p = .ok t) ∧
    (w.db.reportItem ctx.siteID c.orderID).isSome

/-- The cart can be updated, the order can be shown with an item, and the item can be debited. -/
def Settles (e : DBOrder) : Prop :=
  env.cartUpdate = .ok () ∧ ∃ order item items, w.db.renderOrder e = .ok order ∧
    order.items = item :: items ∧ env.debitOrder order item = .ok ()

def Retrievable (r : ReportRow) : Prop :=
  ∃ ctx : CallContext, ctx.siteID = r.siteID ∧ ∃ q cs, (w.reportRequest ctx q).2 = .ok cs ∧
    ∃ report ∈ cs, report.reportID = r.id

/-- If the call ends with an exception, none of the reports it created can be retrieved. -/
def Undelivered : Prop :=
  ∀ x, (w.reportCreate env ctx c).2 = .error x →
    ∀ r ∈ (w.reportCreate env ctx c).1.db.reports, r ∉ w.db.reports →
      ¬ (w.reportCreate env ctx c).1.Retrievable r

end Model

/-- The declared keys hold, and the report cache has entries for existing reports only. -/
structure Sound (w : ReportWorld) : Prop where
  keys : w.db.ReportKeys
  known : ∀ s k v, w.reportCache s k = some v → ∃ r ∈ w.db.reports, r.siteID = s ∧ r.id = k

structure Consults (w w' : ReportWorld) : Prop where
  db : w'.db = w.db
  orders : ∀ s, Extends (w.db.orderOf s) (w.orderCache s) (w'.orderCache s)
  reports : ∀ s, Extends (w.db.reportOf s) (w.reportCache s) (w'.reportCache s)
  known : ∀ s k v, w'.reportCache s k = some v →
    w.reportCache s k = some v ∨ ∃ r ∈ w.db.reports, r.siteID = s ∧ r.id = k

variable {w w' w'' : ReportWorld} {env : ReportEnv} {ctx : CallContext} {c : ReportCall}
  {rt : ReportTypeRow} {q : DBQuery} {e : DBOrder}

theorem Consults.refl (w : ReportWorld) : w.Consults w :=
  ⟨rfl, fun _ => Extends.refl _ _, fun _ => Extends.refl _ _, fun _ _ _ h => .inl h⟩

section

variable (h : w.Consults w')
include h

theorem Consults.trans (h' : w'.Consults w'') : w.Consults w'' := by
  refine ⟨h'.db.trans h.db, fun s => (h.orders s).trans (h.db ▸ h'.orders s),
    fun s => (h.reports s).trans (h.db ▸ h'.reports s), fun s k v hv => ?_⟩
  rcases h'.known s k v hv with hv | hr
  · exact h.known s k v hv
  · exact .inr (h.db ▸ hr)

theorem Consults.sound (hI : w.Sound) : w'.Sound := by
  refine ⟨h.db ▸ hI.keys, fun s k v hv => ?_⟩
  rw [h.db]
  exact (h.known s k v hv).elim (hI.known s k v) id

theorem Consults.orderOn_eq (k : ℤ) : w'.orderOn ctx k = w.orderOn ctx k := by
  unfold orderOn
  rw [h.db, (h.orders ctx.siteID).answer_eq]

theorem Consults.reportsOn_eq (k : ℤ) :
    w'.reportsOn ctx k = w.reportsOn ctx k := by
  unfold reportsOn
  rw [h.db, (h.reports ctx.siteID).answer_eq]

theorem Consults.accepts_iff :
    w'.Accepts ctx c e q rt ↔ w.Accepts ctx c e q rt := by
  refine ⟨fun ha => ⟨?_, ha.owner, ?_, ?_, ?_⟩, fun ha => ⟨?_, ha.owner, ?_, ?_, ?_⟩⟩
  · exact h.orderOn_eq _ ▸ ha.order
  · exact h.reportsOn_eq _ ▸ ha.fresh
  · exact h.db ▸ ha.query
  · exact h.db ▸ ha.type
  · exact (h.orderOn_eq _).symm ▸ ha.order
  · exact (h.reportsOn_eq _).symm ▸ ha.fresh
  · exact h.db.symm ▸ ha.query
  · exact h.db.symm ▸ ha.type

end

theorem extends_update {κ ε : Type*} {fetch : ℕ → κ → Option ε} {f : ℕ → Store κ ε} {i : ℕ}
    {x : Store κ ε} (h : Extends (fetch i) (f i) x) (s : ℕ) :
    Extends (fetch s) (f s) (Function.update f i x s) := by
  by_cases hs : s = i
  · subst hs
    rw [Function.update_self]
    exact h
  · rw [Function.update_of_ne hs]
    exact Extends.refl _ _

theorem lookupOrder_consults (hk : w.db.OrderKeys) (ctx : CallContext) (k : ℤ) :
    w.Consults (w.lookupOrder ctx k).1 ∧ (w.lookupOrder ctx k).2 = w.orderOn ctx k := by
  have hr := Db.siteOrderCache_reads hk ctx.siteID
  exact ⟨⟨rfl, extends_update (get_extends hr k),
    fun _ => Extends.refl _ _, fun _ _ _ h => .inl h⟩,
    (get_spec hr false k).1⟩

theorem orderGet_consults (hk : w.db.OrderKeys) (ctx : CallContext) (keys : List ℤ) :
    w.Consults { w with toOrderWorld := (w.orderGet ctx keys).1 } :=
  ⟨rfl, extends_update (getMany_extends (Db.siteOrderCache_reads hk ctx.siteID) keys),
    fun _ => Extends.refl _ _, fun _ _ _ h => .inl h⟩

section

variable (hk : w.db.ReportKeys)
include hk

theorem reportGet_consults {keys : List ℤ}
    (hkeys : ∀ k ∈ keys, ∃ r ∈ w.db.reports, r.siteID = ctx.siteID ∧ r.id = k) :
    w.Consults (w.reportGet ctx keys).1 := by
  have hr := Db.siteReportCache_reads hk ctx.siteID
  refine ⟨rfl, fun _ => Extends.refl _ _,
    extends_update (getMany_extends hr keys), fun s k v hv => ?_⟩
  by_cases hs : s = ctx.siteID
  · subst hs
    simp only [reportGet, Function.update_self] at hv
    rcases (getMany_spec hr false keys).2 k v hv with hv | ⟨hm, -⟩
    · exact .inl hv
    · exact .inr (hkeys k hm)
  · simp only [reportGet, Function.update_of_ne hs] at hv
    exact .inl hv

theorem reportGet_answers (keys : List ℤ) :
    (w.reportGet ctx keys).2 = ((distinct keys).filterMap (EntityCache.answer
      (w.db.reportOf ctx.siteID) false (w.reportCache ctx.siteID))).map Db.renderReport :=
  congrArg (List.map Db.renderReport)
    (getMany_spec (Db.siteReportCache_reads hk ctx.siteID) false keys).1

theorem reportSearch_consults (ctx : CallContext) (f : ReportFilters) :
    w.Consults (w.reportSearch ctx f).1 :=
  reportGet_consults hk fun _ h => Db.mem_spReportSearch h

theorem reportList_consults (ctx : CallContext) (ids : List ℤ) :
    w.Consults (w.reportList ctx ids).1 := by
  refine reportGet_consults hk fun k h => ?_
  obtain ⟨-, r, hr, hs, hid, -⟩ := Db.mem_spReportValidateAccess.1 h
  exact ⟨r, hr, hs, hid⟩

end

theorem refreshQuery_eq (k : ℤ) : (w.refreshQuery k).2 = (w.db.spQueryGet k).head? := by
  simp only [refreshQuery, EntityCache.get, if_true, remove_self, Db.queryCache]
  rcases w.db.spQueryGet k with _ | ⟨q, rest⟩ <;> rfl

theorem refreshReportType_of_keys (hk : w.db.ReportKeys) (code : Text) :
    (w.refreshReportType ctx code).2 = w.db.reportTypeOf ctx.siteID code := by
  simp only [refreshReportType, EntityCache.get, if_true, remove_self]
  rw [← Db.reportTypeCache_reads hk ctx.siteID code]
  rcases (w.db.reportTypeCache ctx.siteID).getFromDB [code] with _ | ⟨rt, rest⟩ <;> rfl

theorem refreshQuery_consults (w : ReportWorld) (k : ℤ) : w.Consults (w.refreshQuery k).1 :=
  ⟨rfl, fun _ => Extends.refl _ _, fun _ => Extends.refl _ _, fun _ _ _ h => .inl h⟩

theorem refreshReportType_consults (w : ReportWorld) (ctx : CallContext) (code : Text) :
    w.Consults (w.refreshReportType ctx code).1 :=
  ⟨rfl, fun _ => Extends.refl _ _, fun _ => Extends.refl _ _, fun _ _ _ h => .inl h⟩

theorem attempt_answer (hk : w.db.ReportKeys) (env : ReportEnv) (ctx : CallContext) (c : ReportCall)
    (isRetry : Bool) :
    w.Consults (w.attempt env ctx c isRetry).1 ∧ (w.attempt env ctx c isRetry).2 =
      match w.orderOn ctx c.orderID with
      | none => .failed .orderNotFound
      | some e => if e.userID ≠ ctx.authorizedUserID then .failed .orderNotFound
        else w.answer env ctx c isRetry e := by
  obtain ⟨h1, horder⟩ := lookupOrder_consults hk.toOrderKeys ctx c.orderID
  unfold attempt
  rcases hl : w.lookupOrder ctx c.orderID with ⟨w1, dbOrder⟩
  rw [hl] at h1 horder
  rw [← horder]
  rcases dbOrder with _ | dbOrder
  · exact ⟨h1, rfl⟩
  dsimp only
  by_cases hu : dbOrder.userID ≠ ctx.authorizedUserID
  · rw [if_pos hu, if_pos hu]
    exact ⟨h1, rfl⟩
  rw [if_neg hu, if_neg hu]
  have hk1 : w1.db.ReportKeys := h1.db.symm ▸ hk
  have h2 := h1.trans (refreshQuery_consults w1 c.queryID)
  have h3 := h2.trans (reportSearch_consults (w := (w1.refreshQuery c.queryID).1) hk1 ctx
    { orderID := some c.orderID })
  have hreports : ((w1.refreshQuery c.queryID).1.reportSearch ctx { orderID := some c.orderID }).2
      = w.reportsOn ctx c.orderID :=
    (reportGet_answers (w := (w1.refreshQuery c.queryID).1) hk1 _).trans (h2.reportsOn_eq _)
  have hquery : (w1.refreshQuery c.queryID).2 = (w.db.spQueryGet c.queryID).head? := by
    rw [refreshQuery_eq, h1.db]
  rw [hreports, hquery]
  unfold answer
  by_cases hany : w.fulfilled ctx c = true
  · rw [if_pos hany]
    unfold fulfilled at hany
    rw [if_pos hany]
    exact ⟨h3, rfl⟩
  · rw [if_neg hany]
    unfold fulfilled at hany
    rw [if_neg hany]
    rw [show dbOrder.expectedItem.bind (·.reportTypeCode) = expectedCode dbOrder from rfl]
    rcases c.typeCode.or (expectedCode dbOrder) with _ | code
    · exact ⟨h3, rfl⟩
    · refine ⟨h3.trans (refreshReportType_consults _ ctx code), ?_⟩
      dsimp only
      rw [refreshReportType_of_keys (h3.db.symm ▸ hk), h3.db]

theorem fulfilled_iff : w.fulfilled ctx c = true ↔
    ∃ r ∈ w.reportsOn ctx c.orderID, some r.reportTypeCode = c.typeCode ∧
      r.profileID = c.profileID := by
  simp only [fulfilled, any_eq_true, Bool.and_eq_true, decide_eq_true_eq]

theorem Accepts.answer_eq (ha : w.Accepts ctx c e q rt) (env : ReportEnv) (isRetry : Bool) :
    w.answer env ctx c isRetry e = fetchProfile env c isRetry (some q) (some rt) := by
  have hfresh : ¬ w.fulfilled ctx c = true := fun h => by
    obtain ⟨r, hr, hm⟩ := fulfilled_iff.1 h
    exact ha.fresh r hr hm
  obtain ⟨code, hcode, ht⟩ := ha.type
  unfold answer
  rw [if_neg hfresh, hcode, ha.query, ← ht]

theorem answer_failed (he : w.orderOn ctx c.orderID = some e)
    (hu : e.userID = ctx.authorizedUserID) (hn : ¬ ∃ q rt, w.Accepts ctx c e q rt)
    (env : ReportEnv) (isRetry : Bool) : ∃ x, w.answer env ctx c isRetry e = .failed x := by
  unfold answer
  by_cases hf : w.fulfilled ctx c = true
  · rw [if_pos hf]
    exact ⟨_, rfl⟩
  rw [if_neg hf]
  rcases hcode : c.typeCode.or (expectedCode e) with _ | code
  · exact ⟨_, rfl⟩
  dsimp only
  rcases hq : (w.db.spQueryGet c.queryID).head? with _ | q
  · cases w.db.reportTypeOf ctx.siteID code <;> exact ⟨_, rfl⟩
  rcases ht : w.db.reportTypeOf ctx.siteID code with _ | rt
  · exact ⟨_, rfl⟩
  · refine absurd ⟨q, rt, he, hu, fun r hr hm => ?_, hq, code, hcode, ht⟩ hn
    exact hf (fulfilled_iff.2 ⟨r, hr, hm⟩)

theorem attempt_cases (hk : w.db.ReportKeys) (env : ReportEnv) (ctx : CallContext) (c : ReportCall)
    (isRetry : Bool) :
    w.Consults (w.attempt env ctx c isRetry).1 ∧
      ((∃ e q rt, w.Accepts ctx c e q rt ∧
        (w.attempt env ctx c isRetry).2 = fetchProfile env c isRetry (some q) (some rt)) ∨
      (¬ ∃ e q rt, w.Accepts ctx c e q rt) ∧ ∃ x, (w.attempt env ctx c isRetry).2 = .failed x) := by
  obtain ⟨h, hans⟩ := attempt_answer hk env ctx c isRetry
  refine ⟨h, ?_⟩
  rw [hans]
  rcases ho : w.orderOn ctx c.orderID with _ | e
  · refine .inr ⟨?_, _, rfl⟩
    rintro ⟨e, q, rt, ha⟩
    simpa [ho] using ha.order
  have hsame : ∀ {e' q rt}, w.Accepts ctx c e' q rt → e' = e := fun ha =>
    Option.some.inj (ha.order.symm.trans ho)
  dsimp only
  split_ifs with hu
  · refine .inr ⟨?_, _, rfl⟩
    rintro ⟨e', q, rt, ha⟩
    exact hu (hsame ha ▸ ha.owner)
  · by_cases hacc : ∃ q rt, w.Accepts ctx c e q rt
    · obtain ⟨q, rt, ha⟩ := hacc
      exact .inl ⟨e, q, rt, ha, ha.answer_eq env isRetry⟩
    · refine .inr ⟨?_, answer_failed ho (not_not.1 hu) hacc env isRetry⟩
      rintro ⟨e', q, rt, ha⟩
      exact hacc ⟨q, rt, hsame ha ▸ ha⟩

theorem Accepts.unique {e e' : DBOrder} {q q' : DBQuery} {rt rt' : ReportTypeRow}
    (h : w.Accepts ctx c e q rt) (h' : w.Accepts ctx c e' q' rt') : e = e' ∧ q = q' ∧ rt = rt' := by
  obtain rfl := Option.some.inj (h.order.symm.trans h'.order)
  obtain ⟨code, hcode, ht⟩ := h.type
  obtain ⟨code', hcode', ht'⟩ := h'.type
  obtain rfl := Option.some.inj (hcode.symm.trans hcode')
  exact ⟨rfl, Option.some.inj (h.query.symm.trans h'.query), Option.some.inj (ht.symm.trans ht')⟩

theorem Finds.unique {p p' : Profile}
    (h : Finds env c q rt p) (h' : Finds env c q rt p') : p = p' := by
  rcases h with h | ⟨hn, -, h⟩ <;> rcases h' with h' | ⟨hn', -, h'⟩
  · simpa using h.symm.trans h'
  · simpa using h.symm.trans hn'
  · simpa using hn.symm.trans h'
  · simpa using h.symm.trans h'

theorem finds_iff {p : Profile} : Finds env c q rt p ↔ profileAnswer env c q rt = .ok (some p) := by
  unfold Finds profileAnswer
  rcases env.getProfile false c.profileID rt.profileAttributes q.state with x | _ | p'
  · simp
  · rcases env.deleteCachedProfile with x | _ <;> simp
  · simp

theorem reportCreate_accepted (hk : w.db.ReportKeys) (ha : w.Accepts ctx c e q rt) (env : ReportEnv)
    :
    ∃ w', w.Consults w' ∧ w.reportCreate env ctx c =
      match profileAnswer env c q rt with
      | .error x => (w', .error x)
      | .ok none => (w', .error .profileNotFound)
      | .ok (some p) => w'.store env ctx c q rt p := by
  have htry : ∀ {w₁ : ReportWorld}, w.Consults w₁ → ∀ isRetry,
      w.Consults (w₁.attempt env ctx c isRetry).1 ∧
        (w₁.attempt env ctx c isRetry).2 = fetchProfile env c isRetry (some q) (some rt) := by
    intro w₁ h isRetry
    obtain ⟨h', hcases⟩ := attempt_cases (h.db.symm ▸ hk) env ctx c isRetry
    refine ⟨h.trans h', ?_⟩
    rcases hcases with ⟨e', q', rt', ha', hat⟩ | ⟨hn, -⟩
    · obtain ⟨-, rfl, rfl⟩ := ha.unique (h.accepts_iff.1 ha')
      exact hat
    · exact absurd ⟨e, q, rt, h.accepts_iff.2 ha⟩ hn
  obtain ⟨h₁, hat⟩ := htry (Consults.refl w) false
  unfold profileAnswer
  rcases hp : env.getProfile false c.profileID rt.profileAttributes q.state with x | _ | p
  · simp only [fetchProfile, hp] at hat
    refine ⟨_, h₁, ?_⟩
    simp only [reportCreate, conclude, hat]
  · simp only [fetchProfile, hp] at hat
    rcases hd : env.deleteCachedProfile with x | _
    · refine ⟨_, h₁, ?_⟩
      simp only [reportCreate, hat, hd]
    · obtain ⟨h₂, hat'⟩ := htry h₁ true
      refine ⟨_, h₂, ?_⟩
      rcases hp' : env.getProfile true c.profileID rt.profileAttributes q.state with x | _ | p <;>
        · simp only [fetchProfile, hp'] at hat'
          simp only [reportCreate, conclude, hat, hd, hat']
  · simp only [fetchProfile, hp] at hat
    refine ⟨_, h₁, ?_⟩
    simp only [reportCreate, conclude, hat]

/-- The row a call adds: the caller's, under an id above all others, of a type that exists, for the
item that `spReportCreate` picks. -/
structure NewReport (w : ReportWorld) (ctx : CallContext) (c : ReportCall) (r : ReportRow) :
    Prop where
  siteID : r.siteID = ctx.siteID
  userID : r.userID = ctx.authorizedUserID
  id : ∀ r' ∈ w.db.reports, r'.id < r.id
  type : (w.db.reportTypeOf r.siteID r.reportTypeCode).isSome
  item : (w.db.reportItem ctx.siteID c.orderID).map (·.id) = some r.orderItemID

theorem spReportCreate_cases (hk : w.db.ReportKeys)
    (hrt : rt ∈ w.db.reportTypes) (hs : rt.siteID = ctx.siteID) (env : ReportEnv) (c : ReportCall)
    (state : Option Text) (json html : Text) :
    ((w.db.reportItem ctx.siteID c.orderID).isSome ∧ ∃ r, w.NewReport ctx c r ∧
      w.db.spReportCreate env.now ctx.siteID ctx.authorizedUserID c.orderID c.queryID c.profileID
        state rt.typeCode json html = .ok (r.id, w.db.addReport r)) ∨
    w.db.reportItem ctx.siteID c.orderID = none ∧
      w.db.spReportCreate env.now ctx.siteID ctx.authorizedUserID c.orderID c.queryID c.profileID
        state rt.typeCode json html = .error .sql := by
  have hcode : Sql.varchar 3 rt.typeCode = rt.typeCode := by
    rw [Sql.varchar, take_of_length_le (hk.typeCodes rt hrt)]
  have htype : (w.db.reportTypeOf ctx.siteID (Sql.varchar 3 rt.typeCode)).isSome := by
    rw [hcode, Db.reportTypeOf, find?_isSome]
    exact ⟨rt, hrt, by simp [hs]⟩
  rcases hc : w.db.spReportCreate env.now ctx.siteID ctx.authorizedUserID c.orderID c.queryID
      c.profileID state rt.typeCode json html with x | ⟨id, db'⟩
  · unfold Db.spReportCreate at hc
    split at hc
    · rename_i hi
      exact .inr ⟨hi, hc.symm⟩
    · rw [if_neg (by simpa [Option.isSome_iff_ne_none] using htype)] at hc
      cases hc
  · obtain ⟨r, oi, rfl, rfl, hid, hrs, hru, -, -, -, hrt', hoi, hitem⟩ := Db.spReportCreate_ok hc
    refine .inl ⟨by rw [hoi]; rfl, r, ⟨hrs, hru, fun r' hr' => ?_, ?_, ?_⟩, rfl⟩
    · rw [hid]
      exact Db.lt_nextReportID hr'
    · rw [hrs, hrt']
      exact htype
    · rw [hoi, hitem, Option.map_some]

theorem store_cases (hk : w.db.ReportKeys) (h : w.Consults w') {p : Profile}
    (ha : w.Accepts ctx c e q rt) (hf : Finds env c q rt p) :
    (w.Stores env ctx c e ∧ ∃ r, w.NewReport ctx c r ∧ w'.store env ctx c q rt p
      = ({ w' with db := w'.db.addReport r } : ReportWorld).fulfil env ctx c r.id) ∨
    (¬ ∃ e, w.Stores env ctx c e) ∧ ∃ x, w'.store env ctx c q rt p = (w', .error x) := by
  obtain ⟨code, -, ht⟩ := ha.type
  obtain ⟨hrt, hs, -⟩ := Db.reportTypeOf_some ht
  have hcomp : w'.compose env c q p = w.compose env c q p := by
    unfold compose
    rw [h.db]
  have honly : ∀ {e'}, w.Stores env ctx c e' → (∃ t, w.compose env c q p = .ok t) ∧
      (w.db.reportItem ctx.siteID c.orderID).isSome := by
    rintro e' ⟨q', rt', p', ha', hf', ht', hi⟩
    obtain ⟨rfl, rfl, rfl⟩ := ha.unique ha'
    obtain rfl := hf.unique hf'
    exact ⟨ht', hi⟩
  unfold store
  rw [hcomp]
  rcases ht : w.compose env c q p with x | ⟨json, html⟩
  · refine .inr ⟨?_, x, rfl⟩
    rintro ⟨e', he'⟩
    obtain ⟨⟨t, ht'⟩, -⟩ := honly he'
    rw [ht] at ht'
    cases ht'
  · dsimp only
    rw [h.db]
    rcases spReportCreate_cases hk hrt hs env c q.state json html with
      ⟨hi, r, hr, hc⟩ | ⟨hi, hc⟩
    · rw [hc]
      exact .inl ⟨⟨q, rt, p, ha, hf, ⟨_, ht⟩, hi⟩, r, hr, rfl⟩
    · rw [hc]
      refine .inr ⟨?_, _, rfl⟩
      rintro ⟨e', he'⟩
      have := (honly he').2
      rw [hi] at this
      cases this

theorem not_stores_of_not_finds (ha : w.Accepts ctx c e q rt) (hf : ∀ p, ¬ Finds env c q rt p) :
    ¬ ∃ e, w.Stores env ctx c e := by
  rintro ⟨e', q', rt', p, ha', hf', -⟩
  obtain ⟨-, rfl, rfl⟩ := ha.unique ha'
  exact hf p hf'

/-- The call either comes to store a report, for which nothing was missing, or consults the caches
and fails. -/
theorem reportCreate_cases (hk : w.db.ReportKeys) (env : ReportEnv) (ctx : CallContext)
    (c : ReportCall) :
    (∃ e w₁ r, w.Stores env ctx c e ∧ w.Consults w₁ ∧ w.NewReport ctx c r ∧
      w.reportCreate env ctx c
        = ({ w₁ with db := w₁.db.addReport r } : ReportWorld).fulfil env ctx c r.id) ∨
    (¬ ∃ e, w.Stores env ctx c e) ∧ w.Consults (w.reportCreate env ctx c).1 ∧
      ∃ x, (w.reportCreate env ctx c).2 = .error x := by
  obtain ⟨h₁, hcases⟩ := attempt_cases hk env ctx c false
  rcases hcases with ⟨e, q, rt, ha, -⟩ | ⟨hn, x, hat⟩
  · obtain ⟨w', h, heq⟩ := reportCreate_accepted hk ha env
    rw [heq]
    have hmiss : (∀ p, profileAnswer env c q rt ≠ .ok (some p)) → ¬ ∃ e, w.Stores env ctx c e :=
      fun hp => not_stores_of_not_finds ha fun p hf => hp p (finds_iff.1 hf)
    rcases hp : profileAnswer env c q rt with x | _ | p
    · exact .inr ⟨hmiss (by simp [hp]), h, x, rfl⟩
    · exact .inr ⟨hmiss (by simp [hp]), h, _, rfl⟩
    · dsimp only
      rcases store_cases hk h ha (finds_iff.2 hp) with ⟨hs, r, hr, heq⟩ | ⟨hs, x, heq⟩
      · exact .inl ⟨e, w', r, hs, h, hr, heq⟩
      · rw [heq]
        exact .inr ⟨hs, h, x, rfl⟩
  · refine .inr ⟨?_, ?_⟩
    · rintro ⟨e, q, rt, p, ha, -⟩
      exact hn ⟨e, q, rt, ha⟩
    · simp only [reportCreate, conclude, hat]
      exact ⟨h₁, x, rfl⟩

theorem orderGet_on (hk : w.db.OrderKeys) {orderID : ℤ} (he : w.orderOn ctx orderID = some e) :
    (w.orderGet ctx [orderID]).2 = (w.db.renderOrder e).map ([·]) := by
  rw [OrderWorld.orderGet_singleton hk, show EntityCache.answer (w.db.orderOf ctx.siteID) false
    (w.orderCache ctx.siteID) orderID = some e from he]
  rcases hr : w.db.renderOrder e with x | order <;>
    simp [hr, bind, Except.bind, pure, Except.pure, Except.map]

theorem fulfil_cases (hk : w.db.OrderKeys) (he : w.orderOn ctx c.orderID = some e)
    (env : ReportEnv) (id : ℤ) :
    (w.Settles env e ∧ ∃ report, (w.fulfil env ctx c id).2 = .ok report) ∨
    ¬ w.Settles env e ∧ (∃ x, (w.fulfil env ctx c id).2 = .error x) ∧
      (w.fulfil env ctx c id).1.db = w.db ∧
      (w.fulfil env ctx c id).1.reportCache = w.reportCache := by
  have hget := orderGet_on hk he
  unfold fulfil Settles
  rcases env.cartUpdate with x | _
  · exact .inr ⟨fun h => by simpa using h.1, ⟨x, rfl⟩, rfl, rfl⟩
  rcases hr : w.db.renderOrder e with x | order <;> rw [hr] at hget
  · simp only [hget, Except.map]
    refine .inr ⟨?_, ⟨x, rfl⟩, rfl, trivial⟩
    rintro ⟨-, order, item, items, ho, -⟩
    cases ho
  · simp only [hget, Except.map]
    rcases hi : order.items with _ | ⟨item, items⟩
    · refine .inr ⟨?_, ⟨_, rfl⟩, rfl, rfl⟩
      rintro ⟨-, order', item, items, ho, hi', -⟩
      rw [← Except.ok.inj ho, hi] at hi'
      cases hi'
    · rcases hd : env.debitOrder order item with x | _
      · simp only [hd]
        refine .inr ⟨?_, ⟨x, rfl⟩, rfl, trivial⟩
        rintro ⟨-, order', item', items', ho, hi', hd'⟩
        rw [← Except.ok.inj ho, hi] at hi'
        rw [← Except.ok.inj ho, ← (List.cons.inj hi').1, hd] at hd'
        cases hd'
      · simp only [hd]
        exact .inl ⟨⟨trivial, order, item, items, rfl, hi, hd⟩, _, rfl⟩

theorem NewReport.retrievable {r : ReportRow} (hr : w.NewReport ctx c r) (hk : w.db.ReportKeys)
    (hdb : w'.db = w.db.addReport r) (hcache : w'.reportCache ctx.siteID r.id = none) :
    w'.Retrievable r := by
  have hk' : w'.db.ReportKeys := hdb.symm ▸ Db.addReport_keys hk hr.id
  have hmem : r ∈ w'.db.reports := by
    rw [hdb]
    exact mem_append_right _ (mem_singleton_self r)
  have htype : (w'.db.reportTypeOf r.siteID r.reportTypeCode).isSome := by
    rw [hdb]
    exact hr.type
  obtain ⟨rt, hrt⟩ := Option.isSome_iff_exists.1 htype
  obtain ⟨e, he, -⟩ := Db.reportOf_eq hk' hmem hrt
  obtain ⟨-, -, -, -, heid, -⟩ := Db.reportOf_some he
  rw [hr.siteID] at he
  refine ⟨ctx, hr.siteID.symm, .list [r.id], _, rfl, Db.renderReport e, ?_, heid⟩
  show Db.renderReport e ∈ (w'.reportList ctx [r.id]).2
  rw [reportList, reportGet_answers hk']
  refine mem_map_of_mem (mem_filterMap.2 ⟨r.id, ?_, ?_⟩)
  · exact mem_distinct.2 (Db.mem_spReportValidateAccess.2
      ⟨mem_singleton_self _, r, hmem, hr.siteID, rfl, .inr hr.userID⟩)
  · rw [EntityCache.answer, if_pos (.inr hcache), he]

section

variable (hI : w.Sound)
include hI

theorem undelivered_iff_of_sound :
    w.Undelivered env ctx c ↔ ∀ e, w.Stores env ctx c e → w.Settles env e := by
  rcases reportCreate_cases hI.keys env ctx c with ⟨e, w₁, r, hs, h₁, hr, heq⟩ | ⟨hs, h, -⟩
  · have honly : ∀ {e'}, w.Stores env ctx c e' → e' = e := by
      rintro e' ⟨q', rt', p', ha', -⟩
      obtain ⟨q, rt, p, ha, -⟩ := hs
      exact (ha'.unique ha).1
    have horder : ({ w₁ with db := w₁.db.addReport r } : ReportWorld).orderOn ctx c.orderID
        = some e := by
      obtain ⟨q, rt, p, ha, -⟩ := hs
      exact (h₁.orderOn_eq c.orderID).trans ha.order
    have hsettle : ({ w₁ with db := w₁.db.addReport r } : ReportWorld).Settles env e
        ↔ w.Settles env e := by
      unfold Settles
      rw [← h₁.db]
      rfl
    have hk : ({ w₁ with db := w₁.db.addReport r } : ReportWorld).db.OrderKeys := by
      refine (Db.addReport_keys (h₁.db.symm ▸ hI.keys) ?_).toOrderKeys
      exact h₁.db.symm ▸ hr.id
    unfold Undelivered
    rw [heq]
    rcases fulfil_cases hk horder env r.id with ⟨hset, report, hok⟩ | ⟨hset, ⟨x, hx⟩, hdb, hcache⟩
    · refine ⟨fun _ e' he' => honly he' ▸ hsettle.1 hset, fun _ x hx => ?_⟩
      rw [hok] at hx
      cases hx
    · refine ⟨fun hu => ?_, fun hall => absurd (hsettle.2 (hall e hs)) hset⟩
      have hnone : w₁.reportCache ctx.siteID r.id = none := by
        rcases hv : w₁.reportCache ctx.siteID r.id with _ | v
        · rfl
        · obtain ⟨r', hr', -, hid⟩ := (h₁.sound hI).known _ _ _ hv
          have := hr.id r' (h₁.db ▸ hr')
          omega
      refine absurd (hr.retrievable hI.keys (hdb.trans ?_) ?_) (hu x hx r ?_ fun hm => ?_)
      · show w₁.db.addReport r = w.db.addReport r
        rw [h₁.db]
      · rw [hcache]
        exact hnone
      · rw [hdb]
        exact mem_append_right _ (mem_singleton_self r)
      · have := hr.id r hm
        omega
  · refine ⟨fun _ e he => absurd ⟨e, he⟩ hs, fun _ x _ r hr hnew => ?_⟩
    rw [h.db] at hr
    exact absurd hr hnew

theorem Sound.createFromIwsOrder (now : ℤ) (ctx : CallContext) (xml : OrderXml)
    (queryID : Option ℤ) (profileID : Option Text) :
    ({ w with toOrderWorld := (w.createFromIwsOrder now ctx xml queryID profileID).1 } :
      ReportWorld).Sound := by
  have hkeys : (w.db.createOrder now ctx.siteID xml queryID profileID).1.OrderKeys :=
    Db.createOrder_keys hI.keys.toOrderKeys
  obtain ⟨orders, products, items, h⟩ : ∃ orders products items,
      (w.db.createOrder now ctx.siteID xml queryID profileID).1
        = { w.db with orders := orders, products := products, orderItems := items } :=
    Db.createOrder_tables
  simp only [OrderWorld.createFromIwsOrder]
  rw [h] at hkeys ⊢
  exact ⟨⟨hkeys, hI.keys.reports, hI.keys.reportTypes, hI.keys.firstNames, hI.keys.lastNames,
    hI.keys.initials, hI.keys.typeCodes⟩, hI.known⟩

theorem Sound.fulfil {id : ℤ}
    (hid : ∃ r ∈ w.db.reports, r.siteID = ctx.siteID ∧ r.id = id) :
    (w.fulfil env ctx c id).1.Sound := by
  have hget := orderGet_consults hI.keys.toOrderKeys ctx [c.orderID]
  unfold ReportWorld.fulfil
  dsimp only
  repeat' split
  · exact hI
  all_goals try exact hget.sound hI
  exact (reportGet_consults (hget.sound hI).keys fun k hk => mem_singleton.1 hk ▸ hid).sound
    (hget.sound hI)

theorem Sound.reportCreate (env : ReportEnv) (ctx : CallContext) (c : ReportCall) :
    (w.reportCreate env ctx c).1.Sound := by
  rcases reportCreate_cases hI.keys env ctx c with ⟨e, w₁, r, -, h₁, hr, heq⟩ | ⟨-, h, -⟩
  · rw [heq]
    have hI₁ := h₁.sound hI
    refine Sound.fulfil ⟨Db.addReport_keys hI₁.keys (h₁.db.symm ▸ hr.id), fun s k v hv => ?_⟩
      ⟨r, mem_append_right _ (mem_singleton_self r), hr.siteID, rfl⟩
    obtain ⟨r', hr', h'⟩ := hI₁.known s k v hv
    exact ⟨r', mem_append_left _ hr', h'⟩
  · exact h.sound hI

theorem Sound.handle (r : Request) : (w.handle r).Sound := by
  have hk := hI.keys.toOrderKeys
  cases r with
  | order ctx r =>
    match r with
    | .search f => exact (orderGet_consults hk ctx _).sound hI
    | .get k true => exact (orderGet_consults hk ctx _).sound hI
    | .get k false =>
      simp only [ReportWorld.handle, OrderWorld.orderRequest, OrderWorld.getOrder,
        Bool.false_eq_true, if_false, OrderWorld.getAccessible]
      split_ifs
      · exact (orderGet_consults hk ctx _).sound hI
      · exact hI
  | reportNew ctx env c => exact hI.reportCreate env ctx c
  | reportSearch ctx f => exact (reportSearch_consults hI.keys ctx f).sound hI
  | reportList ctx ids => exact (reportList_consults hI.keys ctx ids).sound hI
  | orderGet ctx keys => exact (orderGet_consults hk ctx keys).sound hI
  | orderCreate now ctx xml queryID profileID =>
    exact hI.createFromIwsOrder now ctx xml queryID profileID

end

theorem Sound.run_handle {w₀ : ReportWorld} (hI : w₀.Sound) (history : List Request) :
    (run ReportWorld.handle w₀ history).Sound :=
  run_inv_of_step (I := Sound) (fun _ r hI => hI.handle r) history hI

/-- After any history of requests, a call that ends with an exception leaves no report to be
retrieved exactly if, should it come to store the report, the cart can then be updated, the order
shown with an item, and the item debited. -/
theorem undelivered_iff {w₀ w : ReportWorld} (hI : w₀.Sound) (history : List Request)
    (hw : w = run ReportWorld.handle w₀ history) (env : ReportEnv) (ctx : CallContext)
    (c : ReportCall) :
    w.Undelivered env ctx c ↔ ∀ e, w.Stores env ctx c e → w.Settles env e :=
  undelivered_iff_of_sound (hw ▸ hI.run_handle history)

end ReportWorld

theorem onePurchase_sound : onePurchase.Sound := ⟨onePurchase_inv.keys, onePurchase_inv.known⟩

def debitRefused : ReportEnv where
  getProfile := fun _ _ _ _ => .ok (some {})
  debitOrder := fun _ _ => .error .web

/-- The order and a report that is not there yet were asked for; with a debit that succeeds the
report is then stored, and nothing is handed out undebited. -/
theorem onePurchase_undelivered :
    let ask := askReport "PL"
    let w := run ReportWorld.handle onePurchase
      [.orderGet ask.ctx [1], .reportList ask.ctx [1]]
    (w.reportCreate ask.env ask.ctx ask.call).1.db.reports.map (·.id) = [1] ∧
      w.Undelivered ask.env ask.ctx ask.call := by
  intro ask w
  refine ⟨by decide, (ReportWorld.undelivered_iff onePurchase_sound _ rfl _ _ _).2 ?_⟩
  rintro e ⟨q, rt, p, ha, -⟩
  obtain rfl := Option.some.inj ha.order
  exact ⟨rfl, _, _, _, rfl, rfl, rfl⟩

/-- The debit is refused, the caller sees the error, and asks for the report by its id. -/
theorem undebited_delivered :
    let ctx := (askReport "PL").ctx
    let r := onePurchase.reportCreate debitRefused ctx (askReport "PL").call
    onePurchase.Sound ∧ r.2 = .error .web ∧ onePurchase.db.reports = [] ∧
    r.1.db.reports.map (·.id) = [1] ∧
    ((r.1.reportRequest ctx (.get 1)).2.map fun cs => cs.map (·.reportID)) = .ok [1] ∧
    ¬ onePurchase.Undelivered debitRefused ctx (askReport "PL").call := by
  intro ctx r
  have herr : r.2 = .error .web := by decide
  have hids : r.1.db.reports.map (fun r => (r.siteID, r.id)) = [(1, 1)] := by decide
  have hget : ((r.1.reportRequest ctx (.get 1)).2.map fun cs => cs.map (·.reportID)) = .ok [1] := by
    decide
  refine ⟨onePurchase_sound, herr, rfl, by decide, hget, fun h => ?_⟩
  obtain ⟨row, rest, hrows, hrow, -⟩ := map_eq_cons_iff.1 hids
  obtain ⟨hs, hid⟩ := Prod.mk.inj hrow
  refine h .web herr row (hrows ▸ mem_cons_self ..) (by simp [onePurchase])
    ⟨ctx, hs.symm, .get 1, ?_⟩
  rcases hcs : (r.1.reportRequest ctx (.get 1)).2 with x | cs
  · rw [hcs] at hget
    cases hget
  · rw [hcs] at hget
    obtain ⟨report, rest, rfl, hrep, -⟩ := map_eq_cons_iff.1 (Except.ok.inj hget)
    exact ⟨_, rfl, report, mem_cons_self .., hrep.trans hid.symm⟩

end AciX
