import AciX.Report.Undebited

/-!
# Arguments of a report that may be left out

Without a type code `Report.Create` falls back on the one the order calls for, and without a query
id it looks up query 0. But the search for an existing report and the criminal checks go by the
argument itself, and a query or a report type that was not found is used as if it had been
(`omitted_arguments_null`). `Dereferences` tells from the state before the call that it comes to
such a use, and `handles_iff` says when the call ends as it should.
-/

namespace AciX

/-- The exceptions the service declares; the others come out of the runtime, the database or the
services behind it. -/
def Exn.isDomain : Exn → Bool
  | .nullReference | .keyNotFound | .indexOutOfRange | .noElements | .iws _ | .web | .sql => false
  | _ => true

def ReportCall.named (c : ReportCall) (code : Text) : ReportCall := { c with typeCode := some code }

namespace ReportWorld

section Model

variable (w : ReportWorld) (env : ReportEnv) (ctx : CallContext) (c : ReportCall)

def queryOn : Option DBQuery := (w.db.spQueryGet c.queryID).head?

inductive Dereferences (e : DBOrder) : Prop
  | lookup (code : Text) (fresh : w.fulfilled ctx c = false)
      (resolved : c.typeCode.or (expectedCode e) = some code)
      (missing : w.queryOn c = none ∨ w.db.reportTypeOf ctx.siteID code = none)
  | typeCode (q : DBQuery) (rt : ReportTypeRow) (p p' : Profile) (accepts : w.Accepts ctx c e q rt)
      (found : profileAnswer env c q rt = .ok (some p)) (connected : connectPhones p = .ok p')
      (missing : c.typeCode = none)

/-- The call uses nothing that is missing, and ends with a declared exception or just as if the
code the order calls for had been spelled out. -/
def Handles (e : DBOrder) : Prop :=
  ¬ w.Dereferences env ctx c e ∧
    ((∃ x : Exn, x.isDomain = true ∧ (w.reportCreate env ctx c).2 = .error x) ∨
      ∃ code, expectedCode e = some code ∧
        w.reportCreate env ctx c = w.reportCreate env ctx (c.named code))

def ServicesFail (q : DBQuery) (rt : ReportTypeRow) (x : Exn) : Prop :=
  profileAnswer env c q rt = .error x ∨
    ∃ p, profileAnswer env c q rt = .ok (some p) ∧ connectPhones p = .error x

/-- A call with a type code is for a report the order has. A call without one is for an order that
calls for none; or the query and the type are there and there is no profile, or the services fail
and, unless they do so with a declared exception, the order has no such report. -/
def Resolves (e : DBOrder) : Prop :=
  match c.typeCode, expectedCode e with
  | some _, _ => w.fulfilled ctx c = true
  | none, none => True
  | none, some code => ∃ q rt, w.queryOn c = some q ∧ w.db.reportTypeOf ctx.siteID code = some rt ∧
      (profileAnswer env c q rt = .ok none ∨ ∃ x, ServicesFail env c q rt x ∧
        (x.isDomain = true ∨ w.fulfilled ctx (c.named code) = false))

end Model

variable {w w' : ReportWorld} {env : ReportEnv} {ctx : CallContext} {c : ReportCall} {e : DBOrder}
  {rt : ReportTypeRow} {q : DBQuery} {code : Text} {x : Exn}

theorem fulfilled_none (hc : c.typeCode = none) : w.fulfilled ctx c = false := by
  rw [Bool.eq_false_iff, Ne, fulfilled_iff]
  rintro ⟨r, -, hr, -⟩
  rw [hc] at hr
  cases hr

theorem Consults.fulfilled_eq (h : w.Consults w') : w'.fulfilled ctx c = w.fulfilled ctx c := by
  unfold fulfilled
  rw [h.reportsOn_eq]

theorem ServicesFail.connectPhones {p : Profile}
    (hx : ServicesFail env c q rt x) (hp : profileAnswer env c q rt = .ok (some p)) :
    connectPhones p = .error x := by
  rcases hx with hx | ⟨p', hp', hx⟩
  · rw [hx] at hp
    cases hp
  · rw [hp', Except.ok.injEq, Option.some.injEq] at hp
    exact hp ▸ hx

theorem attempt_owned (hk : w.db.ReportKeys) (he : w.orderOn ctx c.orderID = some e)
    (hu : e.userID = ctx.authorizedUserID) (env : ReportEnv) (isRetry : Bool) :
    (w.attempt env ctx c isRetry).2 = w.answer env ctx c isRetry e := by
  rw [(attempt_answer hk env ctx c isRetry).2, he]
  exact if_neg (not_not.2 hu)

theorem reportCreate_failed (h : (w.attempt env ctx c false).2 = .failed x) :
    (w.reportCreate env ctx c).2 = .error x := by
  simp only [reportCreate, conclude, h]

theorem reportCreate_fulfilled (hk : w.db.ReportKeys) (he : w.orderOn ctx c.orderID = some e)
    (hu : e.userID = ctx.authorizedUserID) (env : ReportEnv) (hf : w.fulfilled ctx c = true) :
    (w.reportCreate env ctx c).2 = .error .orderAlreadyFulfilled := by
  refine reportCreate_failed ?_
  rw [attempt_owned hk he hu, answer, if_pos hf]

theorem Dereferences.nullReference (hk : w.db.ReportKeys) (he : w.orderOn ctx c.orderID = some e)
    (hu : e.userID = ctx.authorizedUserID) (h : w.Dereferences env ctx c e) :
    (w.reportCreate env ctx c).2 = .error .nullReference := by
  cases h with
  | lookup code fresh resolved missing =>
    refine reportCreate_failed ?_
    rw [attempt_owned hk he hu, answer, if_neg (Bool.eq_false_iff.1 fresh), resolved]
    dsimp only
    rcases missing with hm | hm
    · rw [show (w.db.spQueryGet c.queryID).head? = none from hm]
      cases w.db.reportTypeOf ctx.siteID code <;> rfl
    · rw [hm]
      rfl
  | typeCode q rt p p' accepts found connected missing =>
    obtain ⟨w₁, -, heq⟩ := reportCreate_accepted hk accepts env
    rw [heq, found]
    simp only [store, compose, connected, missing, Db.criminalCheck, bind, Except.bind]

theorem reportCreate_servicesFail (hk : w.db.ReportKeys) (ha : w.Accepts ctx c e q rt)
    (hx : ServicesFail env c q rt x) :
    (w.reportCreate env ctx c).2 = .error x := by
  obtain ⟨w₁, -, heq⟩ := reportCreate_accepted hk ha env
  rw [heq]
  rcases hx with hx | ⟨p, hp, hx⟩
  · rw [hx]
  · rw [hp]
    simp only [store, compose, hx, bind, Except.bind]

theorem not_dereferences_of_accepts (ha : w.Accepts ctx c e q rt)
    (hp : ∀ p, profileAnswer env c q rt = .ok (some p) → ∃ x, connectPhones p = .error x) :
    ¬ w.Dereferences env ctx c e := by
  rintro (⟨code, -, hcode, hm⟩ | ⟨q', rt', p, p', ha', hf, hok, -⟩)
  · obtain ⟨code', hcode', ht⟩ := ha.type
    obtain rfl := Option.some.inj (hcode.symm.trans hcode')
    rcases hm with hm | hm
    · rw [show w.queryOn c = some q from ha.query] at hm
      cases hm
    · rw [ht] at hm
      cases hm
  · obtain ⟨-, rfl, rfl⟩ := ha.unique ha'
    obtain ⟨x, hx⟩ := hp p hf
    rw [hx] at hok
    cases hok

/-- As long as the order has no such report, a try without a type code is one with the code the
order calls for. -/
theorem attempt_named (hk : w.db.ReportKeys) (he : w.orderOn ctx c.orderID = some e)
    (hc : c.typeCode = none) (hx : expectedCode e = some code)
    (hf : w.fulfilled ctx (c.named code) = false) (env : ReportEnv) (isRetry : Bool) :
    w.attempt env ctx c isRetry = w.attempt env ctx (c.named code) isRetry := by
  obtain ⟨h1, horder⟩ := lookupOrder_consults hk.toOrderKeys ctx c.orderID
  have hn : w.fulfilled ctx c = false := fulfilled_none hc
  unfold attempt
  rw [show (c.named code).orderID = c.orderID from rfl,
    show (c.named code).queryID = c.queryID from rfl]
  rcases hl : w.lookupOrder ctx c.orderID with ⟨w1, dbOrder⟩
  rw [hl] at h1 horder
  obtain rfl : dbOrder = some e := horder.trans he
  dsimp only
  by_cases hu : e.userID ≠ ctx.authorizedUserID
  · rw [if_pos hu, if_pos hu]
  rw [if_neg hu, if_neg hu]
  have hreports : ((w1.refreshQuery c.queryID).1.reportSearch ctx { orderID := some c.orderID }).2
      = w.reportsOn ctx c.orderID :=
    (reportGet_answers (w := (w1.refreshQuery c.queryID).1) (h1.db.symm ▸ hk) _).trans
      ((h1.trans (refreshQuery_consults w1 c.queryID)).reportsOn_eq _)
  unfold fulfilled at hn hf
  rw [show (c.named code).orderID = c.orderID from rfl] at hf
  rw [hreports, hn, hf]
  rw [show e.expectedItem.bind (·.reportTypeCode) = some code from hx, hc]
  rfl

theorem conclude_named {r : ReportWorld × Attempt}
    (hr : ∀ q rt p, r.2 = .ready q rt p → ∃ x, connectPhones p = .error x) :
    conclude env ctx c r = conclude env ctx (c.named code) r := by
  unfold conclude
  rcases hr' : r.2 with x | _ | ⟨q, rt, p⟩
  · rfl
  · rfl
  · obtain ⟨x, hx⟩ := hr q rt p hr'
    simp only [store, compose, hx, bind, Except.bind]

theorem getProfile_of_ready {isRetry : Bool} {q q' : DBQuery} {rt rt' : ReportTypeRow} {p : Profile}
    (h : fetchProfile env c isRetry (some q) (some rt) = .ready q' rt' p) :
    env.getProfile isRetry c.profileID rt.profileAttributes q.state = .ok (some p) := by
  unfold fetchProfile at h
  rcases hp : env.getProfile isRetry c.profileID rt.profileAttributes q.state with x | _ | p'
  · simp [hp] at h
  · simp [hp] at h
  · simp only [hp, Attempt.ready.injEq] at h
    rw [h.2.2]

theorem getProfile_of_noProfile {isRetry : Bool}
    (h : fetchProfile env c isRetry (some q) (some rt) = .noProfile) :
    env.getProfile isRetry c.profileID rt.profileAttributes q.state = .ok none := by
  unfold fetchProfile at h
  rcases hp : env.getProfile isRetry c.profileID rt.profileAttributes q.state with x | _ | p'
  · simp [hp] at h
  · rfl
  · simp [hp] at h

theorem reportCreate_named (hk : w.db.ReportKeys) (ha : w.Accepts ctx c e q rt)
    (hc : c.typeCode = none)
    (hcode : expectedCode e = some code) (hf : w.fulfilled ctx (c.named code) = false)
    (hx : ServicesFail env c q rt x) :
    w.reportCreate env ctx c = w.reportCreate env ctx (c.named code) := by
  have htry : ∀ {w₁ : ReportWorld}, w.Consults w₁ → ∀ isRetry,
      w₁.attempt env ctx c isRetry = w₁.attempt env ctx (c.named code) isRetry ∧
      (w₁.attempt env ctx c isRetry).2 = fetchProfile env c isRetry (some q) (some rt) := by
    intro w₁ h isRetry
    have hk₁ : w₁.db.ReportKeys := h.db.symm ▸ hk
    have ha₁ := h.accepts_iff.2 ha
    refine ⟨attempt_named hk₁ ha₁.order hc hcode (h.fulfilled_eq.trans hf) env isRetry, ?_⟩
    rw [attempt_owned hk₁ ha₁.order ha₁.owner, ha₁.answer_eq]
  obtain ⟨h₁, hat₁⟩ := htry (Consults.refl w) false
  obtain ⟨h₂, hat₂⟩ := htry (attempt_answer hk env ctx c false).1 true
  unfold reportCreate
  dsimp only
  rw [← h₁]
  split
  · rename_i hno
    rcases hd : env.deleteCachedProfile with y | _
    · rfl
    · dsimp only
      rw [← h₂]
      refine conclude_named fun q' rt' p hr => ⟨x, hx.connectPhones ?_⟩
      rw [hat₁] at hno
      rw [hat₂] at hr
      exact finds_iff.1 (.inr ⟨getProfile_of_noProfile hno, hd, getProfile_of_ready hr⟩)
  · refine conclude_named fun q' rt' p hr => ⟨x, hx.connectPhones ?_⟩
    rw [hat₁] at hr
    exact finds_iff.1 (.inl (getProfile_of_ready hr))

theorem accepts_of_none (he : w.orderOn ctx c.orderID = some e)
    (hu : e.userID = ctx.authorizedUserID) (hc : c.typeCode = none)
    (hcode : expectedCode e = some code) (hq : w.queryOn c = some q)
    (ht : w.db.reportTypeOf ctx.siteID code = some rt) : w.Accepts ctx c e q rt := by
  refine ⟨he, hu, fun r hr hm => ?_, hq, code, ?_, ht⟩
  · rw [hc] at hm
    cases hm.1
  · rw [hc]
    exact hcode

theorem handles_of_servicesFail (hk : w.db.ReportKeys) (ha : w.Accepts ctx c e q rt)
    (hc : c.typeCode = none)
    (hcode : expectedCode e = some code) (hx : ServicesFail env c q rt x) :
    w.Handles env ctx c e ↔ x.isDomain = true ∨ w.fulfilled ctx (c.named code) = false := by
  have hres := reportCreate_servicesFail hk ha hx
  constructor
  · rintro ⟨-, ⟨y, hy, hr⟩ | ⟨code', hcode', heq⟩⟩
    · rw [hres, Except.error.injEq] at hr
      exact .inl (hr ▸ hy)
    · obtain rfl := Option.some.inj (hcode.symm.trans hcode')
      by_cases hf : w.fulfilled ctx (c.named code) = true
      · rw [heq, reportCreate_fulfilled hk (c := c.named code) ha.order ha.owner env hf,
          Except.error.injEq] at hres
        exact .inl (hres ▸ rfl)
      · exact .inr (Bool.eq_false_iff.2 hf)
  · intro h
    refine ⟨not_dereferences_of_accepts ha fun p hp => ⟨x, hx.connectPhones hp⟩, ?_⟩
    rcases h with h | h
    · exact .inl ⟨x, h, hres⟩
    · exact .inr ⟨code, hcode, reportCreate_named hk ha hc hcode h hx⟩

theorem servicesFail_unique {x y : Exn}
    (hx : ServicesFail env c q rt x) (hy : ServicesFail env c q rt y) : x = y := by
  rcases hy with hy | ⟨p, hp, hy⟩
  · rcases hx with hx | ⟨p, hp, -⟩
    · simpa using hx.symm.trans hy
    · simpa using hp.symm.trans hy
  · simpa using (hx.connectPhones hp).symm.trans hy

theorem handles_of_accepts (hk : w.db.ReportKeys)
    (ha : w.Accepts ctx c e q rt) (hc : c.typeCode = none) (hcode : expectedCode e = some code) :
    w.Handles env ctx c e ↔ profileAnswer env c q rt = .ok none ∨ ∃ x, ServicesFail env c q rt x ∧
      (x.isDomain = true ∨ w.fulfilled ctx (c.named code) = false) := by
  have hfail : ∀ {x}, ServicesFail env c q rt x → profileAnswer env c q rt ≠ .ok none →
      (w.Handles env ctx c e ↔ profileAnswer env c q rt = .ok none ∨
        ∃ x, ServicesFail env c q rt x ∧
          (x.isDomain = true ∨ w.fulfilled ctx (c.named code) = false)) := by
    intro x hx hne
    rw [handles_of_servicesFail hk ha hc hcode hx]
    refine ⟨fun h => .inr ⟨x, hx, h⟩, ?_⟩
    rintro (h | ⟨y, hy, h⟩)
    · exact absurd h hne
    · exact servicesFail_unique hx hy ▸ h
  rcases hp : profileAnswer env c q rt with x | _ | p
  · exact hp ▸ hfail (.inl hp) (by simp [hp])
  · obtain ⟨w₁, -, heq⟩ := reportCreate_accepted hk ha env
    refine iff_of_true ⟨not_dereferences_of_accepts ha fun p h => ?_, ?_⟩ (.inl rfl)
    · rw [hp] at h
      cases h
    · refine .inl ⟨.profileNotFound, rfl, ?_⟩
      rw [heq, hp]
  · rcases hx : connectPhones p with x | p'
    · exact hp ▸ hfail (.inr ⟨p, hp, hx⟩) (by simp [hp])
    · refine iff_of_false (fun h => h.1 (.typeCode q rt p p' ha hp hx hc)) ?_
      rintro (h | ⟨x, h, -⟩)
      · cases h
      · rw [h.connectPhones hp] at hx
        cases hx

/-- A call for an order of the caller that leaves out the type code, or names a query that does not
exist, ends as it should in exactly the cases of `Resolves`. Where it uses what is missing, it ends
in a null reference. -/
theorem handles_iff (hk : w.db.ReportKeys) (env : ReportEnv) (ctx : CallContext) (c : ReportCall)
    (e : DBOrder) (he : w.orderOn ctx c.orderID = some e) (hu : e.userID = ctx.authorizedUserID)
    (hopt : c.typeCode = none ∨ w.queryOn c = none) :
    (w.Dereferences env ctx c e → (w.reportCreate env ctx c).2 = .error .nullReference) ∧
      (w.Handles env ctx c e ↔ w.Resolves env ctx c e) := by
  refine ⟨fun h => h.nullReference hk he hu, ?_⟩
  unfold Resolves
  rcases hc : c.typeCode with _ | tc
  · rcases hcode : expectedCode e with _ | code
    · refine iff_of_true ⟨?_, .inl ⟨.reportTypeCodeRequired, rfl, reportCreate_failed ?_⟩⟩ trivial
      · rintro (⟨code, -, hr, -⟩ | ⟨q, rt, p, p', ha, -⟩)
        · simp [hc, hcode] at hr
        · obtain ⟨code, hr, -⟩ := ha.type
          simp [hc, hcode] at hr
      · rw [attempt_owned hk he hu, answer, if_neg (by simp [fulfilled_none hc]), hc, hcode]
        rfl
    · dsimp only
      have hr : c.typeCode.or (expectedCode e) = some code := by
        rw [hc, hcode]
        rfl
      rcases hq : w.queryOn c with _ | q
      · refine iff_of_false (fun h => h.1 (.lookup code (fulfilled_none hc) hr (.inl hq))) ?_
        rintro ⟨q, rt, hq, -⟩
        cases hq
      rcases ht : w.db.reportTypeOf ctx.siteID code with _ | rt
      · refine iff_of_false (fun h => h.1 (.lookup code (fulfilled_none hc) hr (.inr ht))) ?_
        rintro ⟨q, rt, -, ht, -⟩
        cases ht
      have ha := accepts_of_none he hu hc hcode hq ht
      rw [handles_of_accepts hk (accepts_of_none he hu hc hcode hq ht) hc hcode]
      refine ⟨fun h => ⟨q, rt, rfl, rfl, h⟩, ?_⟩
      rintro ⟨q', rt', hq', ht', h⟩
      cases hq'
      cases ht'
      exact h
  · dsimp only
    have hq : w.queryOn c = none := hopt.resolve_left (by simp [hc])
    have hr : c.typeCode.or (expectedCode e) = some tc := by
      rw [hc]
      rfl
    rcases hf : w.fulfilled ctx c
    · exact iff_of_false (fun h => h.1 (.lookup tc hf hr (.inl hq))) (by simp)
    · refine iff_of_true ⟨?_, .inl ⟨.orderAlreadyFulfilled, rfl, ?_⟩⟩ rfl
      · rintro (⟨code, hfresh, -⟩ | ⟨q, rt, p, p', -, -, -, hn⟩)
        · rw [hf] at hfresh
          cases hfresh
        · rw [hc] at hn
          cases hn
      · exact reportCreate_fulfilled hk he hu env hf

end ReportWorld

def askWith (typeCode : Option Text) (queryID : ℤ) : ReportCall :=
  { (askReport "PL").call with typeCode := typeCode, queryID := queryID }

def noProfile : ReportEnv where
  getProfile := fun _ _ _ _ => .ok none

/-- Without a type code and without a profile the caller is told that there is none. -/
theorem omitted_typeCode_handled :
    ∃ e, onePurchase.orderOn (askReport "PL").ctx 1 = some e ∧
      onePurchase.Handles noProfile (askReport "PL").ctx (askWith none 3) e := by
  obtain ⟨e, he⟩ : ∃ e, onePurchase.orderOn (askReport "PL").ctx 1 = some e := ⟨_, rfl⟩
  refine ⟨e, he, ?_⟩
  refine (ReportWorld.handles_iff onePurchase_inv.keys noProfile (askReport "PL").ctx
    (askWith none 3) e he ?_ (.inl rfl)).2.2 ?_
  · obtain rfl := Option.some.inj he
    rfl
  · obtain rfl := Option.some.inj he
    exact ⟨_, _, rfl, rfl, .inl rfl⟩

/-- The order calls for type PL, and the profile is there. Asked for PL, the code creates the
report; asked for no type in particular, or with a query that does not exist, it ends in a null
reference. -/
theorem omitted_arguments_null :
    let ctx := (askReport "PL").ctx
    let env := (askReport "PL").env
    onePurchase.db.ReportKeys ∧
    (onePurchase.reportCreate env ctx (askWith none 3)).2 = .error .nullReference ∧
    ((onePurchase.reportCreate env ctx (askWith (some "PL".toList) 3)).2.map
      fun r => r.map (·.reportTypeCode)) = .ok (some "PL".toList) ∧
    (onePurchase.reportCreate env ctx (askWith (some "PL".toList) 0)).2 = .error .nullReference ∧
    ∃ e, onePurchase.orderOn ctx 1 = some e ∧ e.userID = ctx.authorizedUserID ∧
      ReportWorld.expectedCode e = some "PL".toList ∧
      ¬ onePurchase.Handles env ctx (askWith none 3) e ∧
      ¬ onePurchase.Handles env ctx (askWith (some "PL".toList) 0) e := by
  intro ctx env
  refine ⟨onePurchase_inv.keys, by decide, by decide, by decide, ?_⟩
  obtain ⟨e, he⟩ : ∃ e, onePurchase.orderOn ctx 1 = some e := ⟨_, rfl⟩
  obtain rfl := Option.some.inj he
  refine ⟨_, rfl, rfl, rfl, fun h => h.1 ?_, fun h => h.1 ?_⟩
  · exact .typeCode _ _ {} {} (ReportWorld.accepts_of_none rfl rfl rfl rfl rfl rfl) rfl rfl rfl
  · exact .lookup "PL".toList (by decide) rfl (.inl rfl)

end AciX
