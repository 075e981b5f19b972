import AciX.Report.Create

/-!
# Who is shown a report

`report/{id}` and `report/list` ask `spReportValidateAccess` which of the ids the caller may see,
`report/search` asks `spReportSearch`, and the ids that come back are looked up in the report cache.
They are those of the caller's own reports, and each is listed once
(`reports_confidential_and_complete`).
-/

namespace AciX

open List

inductive ReportRequest where
  | get (reportID : ℤ)
  | list (reportIDs : List ℤ)
  | search (f : ReportFilters)

namespace Db

variable {db : Db} {siteID : ℕ} {userID k : ℤ}

def OwnReport (db : Db) (siteID : ℕ) (userID k : ℤ) : Prop :=
  ∃ r ∈ db.reports, r.siteID = siteID ∧ r.userID = userID ∧ r.id = k

theorem mem_spReportValidateAccess {keys : List ℤ} :
    k ∈ db.spReportValidateAccess userID siteID keys ↔ k ∈ keys ∧ ∃ r ∈ db.reports,
      r.siteID = siteID ∧ r.id = k ∧
        (db.isBackofficeReader siteID userID = true ∨ r.userID = userID) := by
  have howner : ∀ r : ReportRow, r.userID = (if db.isBackofficeReader siteID userID = true then none
      else some userID).getD r.userID ↔
        (db.isBackofficeReader siteID userID = true ∨ r.userID = userID) := by
    intro r
    split_ifs with hb <;> simp [hb]
  simp only [spReportValidateAccess, mem_map, Prod.exists, Sql.mem_join, mem_filter,
    Bool.and_eq_true, decide_eq_true_eq, howner]
  refine ⟨?_, ?_⟩
  · rintro ⟨r, k', ⟨⟨hr, hs, ho⟩, hk, hid⟩, rfl⟩
    exact ⟨hid ▸ hk, r, hr, hs, rfl, ho⟩
  · rintro ⟨hk, r, hr, hs, rfl, ho⟩
    exact ⟨r, r.id, ⟨⟨hr, hs, ho⟩, hk, rfl⟩, rfl⟩

theorem own_of_mem_spReportSearch (hb : db.isBackofficeReader siteID userID = false)
    {f : ReportFilters} (h : k ∈ db.spReportSearch siteID userID f) :
    db.OwnReport siteID userID k := by
  simp only [spReportSearch, hb, Bool.and_false, Bool.false_eq_true, if_false, Option.getD_some,
    mem_map, mem_flatMap, mem_filter, Bool.and_eq_true, decide_eq_true_eq] at h
  obtain ⟨r', ⟨r, ⟨hr, hs, hu⟩, hr'⟩, rfl⟩ := h
  obtain rfl := mem_reportMatches hr'
  exact ⟨r', hr, hs, hu, rfl⟩

def ReportsHaveTypes (db : Db) : Prop :=
  ∀ r ∈ db.reports, (db.reportTypeOf r.siteID r.reportTypeCode).isSome

instance (db : Db) : Decidable db.ReportsHaveTypes :=
  inferInstanceAs (Decidable (∀ r ∈ db.reports, _))

end Db

namespace ReportWorld

section Model

variable (w : ReportWorld) (ctx : CallContext)

/-- What `ReportController` answers: the reports it returns, or the exception it ends with. -/
def reportRequest : ReportRequest → ReportWorld × Except Exn (List Report)
  | .get reportID =>
    let r := w.reportList ctx [reportID]
    match r.2 with
    | [] => (r.1, .error .reportNotFound)
    | report :: _ => (r.1, .ok [report])
  | .list reportIDs =>
    let r := w.reportList ctx reportIDs
    (r.1, .ok r.2)
  | .search f =>
    let r := w.reportSearch ctx f
    (r.1, .ok r.2)

def requested : ReportRequest → List ℤ
  | .get reportID => w.db.spReportValidateAccess ctx.authorizedUserID ctx.siteID [reportID]
  | .list reportIDs => w.db.spReportValidateAccess ctx.authorizedUserID ctx.siteID reportIDs
  | .search f => w.db.spReportSearch ctx.siteID ctx.authorizedUserID f

end Model

structure Current (w : ReportWorld) : Prop where
  keys : w.db.ReportKeys
  types : w.db.ReportsHaveTypes
  cached : ∀ s, EntityCache.Coherent (w.db.reportOf s) (w.reportCache s)

variable {w : ReportWorld} {ctx : CallContext} {q : ReportRequest}

theorem reportRequest_fst (q : ReportRequest) :
    (w.reportRequest ctx q).1 = (w.reportGet ctx (w.requested ctx q)).1 := by
  cases q with
  | get k =>
    simp only [reportRequest, reportList, requested]
    split <;> rfl
  | list ks => rfl
  | search f => rfl

theorem mem_reportRequest {cs : List Report}
    (h : (w.reportRequest ctx q).2 = .ok cs) {c : Report} (hc : c ∈ cs) :
    c ∈ (w.reportGet ctx (w.requested ctx q)).2 := by
  cases q with
  | get k =>
    simp only [reportRequest, reportList] at h
    simp only [requested]
    rcases hr : (w.reportGet ctx (w.db.spReportValidateAccess ctx.authorizedUserID ctx.siteID
        [k])).2 with _ | ⟨report, rest⟩
    · rw [hr] at h
      cases h
    · rw [hr] at h
      obtain rfl := Except.ok.inj h
      exact mem_cons.2 (.inl (mem_singleton.1 hc))
  | list ks =>
    obtain rfl := Except.ok.inj h
    exact hc
  | search f =>
    obtain rfl := Except.ok.inj h
    exact hc

theorem Current.reportGet (h : w.Current) (keys : List ℤ) :
    (w.reportGet ctx keys).1.Current ∧ (w.reportGet ctx keys).2
      = ((distinct keys).filterMap (w.db.reportOf ctx.siteID)).map Db.renderReport := by
  obtain ⟨hget, hcached⟩ := EntityCache.getMany_coherent
    (Db.siteReportCache_reads h.keys ctx.siteID) (h.cached ctx.siteID) false keys
  refine ⟨⟨h.keys, h.types, fun s => ?_⟩, congrArg (List.map Db.renderReport) hget⟩
  by_cases hs : s = ctx.siteID
  · subst hs
    simpa only [ReportWorld.reportGet, Function.update_self] using hcached
  · simpa only [ReportWorld.reportGet, Function.update_of_ne hs] using h.cached s

theorem own_of_mem_requested (hb : w.db.isBackofficeReader ctx.siteID ctx.authorizedUserID = false)
    {k : ℤ} (h : k ∈ w.requested ctx q) : w.db.OwnReport ctx.siteID ctx.authorizedUserID k := by
  have haccess : ∀ ks, k ∈ w.db.spReportValidateAccess ctx.authorizedUserID ctx.siteID ks →
      w.db.OwnReport ctx.siteID ctx.authorizedUserID k := by
    intro ks hk
    obtain ⟨-, r, hr, hs, hid, ho⟩ := Db.mem_spReportValidateAccess.1 hk
    rw [hb] at ho
    exact ⟨r, hr, hs, ho.resolve_left Bool.false_ne_true, hid⟩
  cases q with
  | get k' => exact haccess _ h
  | list ks => exact haccess _ h
  | search f => exact Db.own_of_mem_spReportSearch hb h

theorem Current.own_of_reportRequest (h : w.Current)
    (hb : w.db.isBackofficeReader ctx.siteID ctx.authorizedUserID = false)
    {cs : List Report} (hq : (w.reportRequest ctx q).2 = .ok cs) {c : Report} (hc : c ∈ cs) :
    ∃ r ∈ w.db.reports, r.siteID = ctx.siteID ∧ r.userID = ctx.authorizedUserID ∧
      c.reportID = r.id ∧ c.userID = r.userID := by
  have hmem := mem_reportRequest hq hc
  rw [(h.reportGet _).2] at hmem
  obtain ⟨e, he, rfl⟩ := mem_map.1 hmem
  obtain ⟨k, hk, hf⟩ := mem_filterMap.1 he
  obtain ⟨r, hr, hs, hu, rfl⟩ := own_of_mem_requested hb (mem_distinct.1 hk)
  obtain ⟨r', hr', hs', hid', heid, heu⟩ := Db.reportOf_some hf
  have hrr : r' = r := h.keys.reports.eq hr' hr (by rw [hs', hs, hid'])
  exact ⟨r, hr, hs, hu, heid, hrr ▸ heu⟩

theorem Current.count_reportList (h : w.Current) {r : ReportRow} (hr : r ∈ w.db.reports)
    (hs : r.siteID = ctx.siteID) (hu : r.userID = ctx.authorizedUserID) {ids : List ℤ}
    (hid : r.id ∈ ids) :
    ∃ e, w.db.reportOf ctx.siteID r.id = some e ∧
      (w.reportList ctx ids).2.filter (·.reportID = r.id) = [Db.renderReport e] := by
  obtain ⟨rt, hrt⟩ := Option.isSome_iff_exists.1 (h.types r hr)
  obtain ⟨e, he, -⟩ := Db.reportOf_eq h.keys hr hrt
  rw [hs] at he
  have hmem : r.id ∈ distinct (w.db.spReportValidateAccess ctx.authorizedUserID ctx.siteID ids) :=
    mem_distinct.2 (Db.mem_spReportValidateAccess.2 ⟨hid, r, hr, hs, rfl, .inr hu⟩)
  have hkey : ∀ {k e'}, w.db.reportOf ctx.siteID k = some e' → e'.reportID = k := by
    intro k e' hf
    obtain ⟨-, -, -, -, heid, -⟩ := Db.reportOf_some hf
    exact heid
  refine ⟨e, he, ?_⟩
  rw [reportList, (h.reportGet _).2, filter_map]
  have hone := nodup_distinct (w.db.spReportValidateAccess ctx.authorizedUserID ctx.siteID ids)
  generalize distinct (w.db.spReportValidateAccess ctx.authorizedUserID ctx.siteID ids) = ks
    at hmem hone ⊢
  obtain ⟨before, after, rfl⟩ := append_of_mem hmem
  have hothers : ∀ ks' : List ℤ, r.id ∉ ks' →
      (ks'.filterMap (w.db.reportOf ctx.siteID)).filter (fun e' => e'.reportID = r.id) = [] := by
    intro ks' hnot
    rw [filter_eq_nil_iff]
    intro e' he' heq
    obtain ⟨k, hk, hf⟩ := mem_filterMap.1 he'
    rw [decide_eq_true_eq, hkey hf] at heq
    exact hnot (heq ▸ hk)
  rw [nodup_append] at hone
  have hbefore : r.id ∉ before := fun hm => hone.2.2 _ hm _ (by simp) rfl
  have hafter : r.id ∉ after := (nodup_cons.1 hone.2.1).1
  have heid : (decide (e.reportID = r.id)) = true := by rw [hkey he]; simp
  show ((List.filterMap _ (before ++ r.id :: after)).filter fun e' =>
    decide (e'.reportID = r.id)).map
    Db.renderReport = _
  rw [filterMap_append, filterMap_cons, he, filter_append, hothers before hbefore,
    filter_cons, if_pos heid, hothers after hafter]
  rfl

theorem Current.reportRequest (h : w.Current) (q : ReportRequest) :
    (w.reportRequest ctx q).1.Current ∧ (w.reportRequest ctx q).1.db = w.db := by
  rw [reportRequest_fst]
  exact ⟨(h.reportGet _).1, rfl⟩

def answerAll (w : ReportWorld) (qs : List (CallContext × ReportRequest)) : ReportWorld :=
  run (fun w q => (w.reportRequest q.1 q.2).1) w qs

theorem Current.answerAll {w₀ : ReportWorld} (h : w₀.Current)
    (qs : List (CallContext × ReportRequest)) :
    (w₀.answerAll qs).Current ∧ (w₀.answerAll qs).db = w₀.db :=
  run_inv_of_step (I := fun w : ReportWorld => w.Current ∧ w.db = w₀.db)
    (fun _ q hI => ⟨(hI.1.reportRequest q.2).1, (hI.1.reportRequest q.2).2.trans hI.2⟩) qs ⟨h, rfl⟩

/-- From a cache of current rows, whatever has been asked before: a caller who is no backoffice
reader is returned only reports of their own on their site, and a list of ids returns each of these
it names exactly once. -/
theorem reports_confidential_and_complete {w₀ w : ReportWorld} (h : w₀.Current)
    (qs : List (CallContext × ReportRequest)) (hw : w = w₀.answerAll qs) (ctx : CallContext)
    (hb : w.db.isBackofficeReader ctx.siteID ctx.authorizedUserID = false) :
    (∀ q cs, (w.reportRequest ctx q).2 = .ok cs → ∀ c ∈ cs, ∃ r ∈ w.db.reports,
      r.siteID = ctx.siteID ∧ r.userID = ctx.authorizedUserID ∧ c.reportID = r.id ∧
        c.userID = r.userID) ∧
    ∀ ids, ∃ cs, (w.reportRequest ctx (.list ids)).2 = .ok cs ∧ ∀ r ∈ w.db.reports,
      r.siteID = ctx.siteID → r.userID = ctx.authorizedUserID → r.id ∈ ids →
        ∃ e, w.db.reportOf ctx.siteID r.id = some e ∧
          cs.filter (·.reportID = r.id) = [Db.renderReport e] := by
  have hc : w.Current := hw ▸ (h.answerAll qs).1
  refine ⟨fun q cs hq c hm => hc.own_of_reportRequest hb hq hm, fun ids => ⟨_, rfl, ?_⟩⟩
  intro r hr hs hu hid
  exact hc.count_reportList hr hs hu hid

end ReportWorld

def twoReaders : ReportWorld where
  db :=
    { reportTypes := [{ siteID := 1, typeCode := "PL".toList }]
      reports :=
        [{ siteID := 1, id := 1, userID := 8, orderItemID := 1, reportTypeCode := "PL".toList,
           queryID := 3, profileID := "TWYHQLQMBBC".toList },
         { siteID := 1, id := 2, userID := 9, orderItemID := 2, reportTypeCode := "PL".toList,
           queryID := 3, profileID := "TWYHQLQMBBC".toList }] }
  orderCache := fun _ _ => none
  reportCache := fun _ _ => none
  queryCache := fun _ => none
  reportTypeCache := fun _ _ => none

theorem twoReaders_own :
    ((twoReaders.reportRequest { siteID := 1, authorizedUserID := 8 } (.list [1, 2, 1])).2.map
      fun cs => cs.map (·.reportID)) = .ok [1] ∧
    ∃ cs, (twoReaders.reportRequest { siteID := 1, authorizedUserID := 8 } (.list [1, 2, 1])).2
        = .ok cs ∧ (cs.filter (·.reportID = 1)).length = 1 := by
  have h : twoReaders.Current :=
    ⟨⟨by decide, by decide, by decide, by decide, by decide, by decide, by decide⟩, by decide,
      fun _ _ _ h => by cases h⟩
  refine ⟨by decide, ?_⟩
  obtain ⟨cs, hcs, hown⟩ := (ReportWorld.reports_confidential_and_complete h [] rfl
    { siteID := 1, authorizedUserID := 8 } (by decide)).2 [1, 2, 1]
  obtain ⟨e, -, he⟩ := hown _ (mem_cons_self ..) rfl rfl (by decide)
  exact ⟨cs, hcs, congrArg List.length he⟩

end AciX
