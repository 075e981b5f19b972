import AciX.Memo
import AciX.Visit.Session

/-!
# Client secrets

A web request that is not anonymous must carry the secret of an enabled client. The verdict on a
secret is kept for the life of the process, so a request is decided as the secret was when it was
first checked (`authorized_as_first_checked`).
-/

namespace AciX

/-- What the check reads of a request; `user` is what the user cache holds for its visit. -/
structure WebRequest where
  visitGuid : Option Text
  clientSecret : Option Text
  userIP : Option Text
  allowAnonymous : Bool := false
  user : Option UserRow := none

def isNullOrEmpty (t : Option Text) : Bool := t.getD [] = []

def Db.spApiClientIsAuthorized (db : Db) (clientSecret : Text) : Except Exn Bool :=
  match Guid.parse (Sql.varchar 128 clientSecret) with
  | none => .error .sql
  | some g => .ok (db.apiClients.any fun c => c.clientSecret = g && c.isEnabled)

structure Server extends World where
  clientSecrets : Text → Option Bool

namespace Server

inductive Event where
  | web (r : WebRequest) (a : Action)
  | createVisit (a : VisitArgs)
  | evict (key : Text)
  | clients (rows : List ApiClientRow)

section Model

variable (w : Server)

def isClientSecretValid (clientSecret : Option Text) : Server × Except Exn Bool :=
  if isNullOrEmpty clientSecret then (w, .ok false)
  else
    let secret := clientSecret.getD []
    match w.clientSecrets secret with
    | some b => (w, .ok b)
    | none =>
      match w.db.spApiClientIsAuthorized secret with
      | .error e => (w, .error e)
      | .ok b => ({ w with clientSecrets := Function.update w.clientSecrets secret (some b) },
        .ok b)

def isAuthorized (ctx : CallContext) (r : WebRequest) : Server × Except Exn Bool :=
  let d := w.isClientSecretValid r.clientSecret
  (d.1, d.2.map fun b => b && ctx.dbVisit.isSome && !isNullOrEmpty r.userIP)

def authorize (ctx : CallContext) (r : WebRequest) : Server × Except Exn Bool :=
  if r.allowAnonymous then (w, .ok true) else w.isAuthorized ctx r

def actOn (ctx : CallContext) (a : Action) : Server :=
  match ctx.dbVisit with
  | none => w
  | some v => { w with toWorld := (w.toWorld.act ctx v a).1 }

def web (r : WebRequest) (a : Action) : Server × Except Exn Bool :=
  match w.sendAsync r.visitGuid r.user with
  | (w', .error e) => ({ w with toWorld := w' }, .error e)
  | (w', .ok ctx) =>
    let d := ({ w with toWorld := w' } : Server).authorize ctx r
    (if d.2 = .ok true then d.1.actOn ctx a else d.1, d.2)

def step : Event → Server
  | .web r a => (w.web r a).1
  | .createVisit a => { w with toWorld := w.toWorld.createVisit a }
  | .evict key => { w with toWorld := w.toWorld.step (.evict key) }
  | .clients rows => { w with db := { w.db with apiClients := rows } }

def checks (secret : Text) : Event → Bool
  | .web r _ => r.clientSecret = some secret && !r.allowAnonymous &&
      (w.sendAsync r.visitGuid r.user).2.isOk
  | _ => false

end Model

variable {w : Server} {r : WebRequest} {secret : Text}

theorem sendAsync_db (w : World) (key : Option Text) (user : Option UserRow) :
    (w.sendAsync key user).1.db = w.db := by
  unfold World.sendAsync
  split
  · rfl
  · exact World.visitGet_db w _

theorem isClientSecretValid_toWorld (w : Server) (s : Option Text) :
    (w.isClientSecretValid s).1.toWorld = w.toWorld := by
  unfold isClientSecretValid
  split_ifs
  · rfl
  · dsimp only
    split
    · rfl
    · split <;> rfl

theorem authorize_toWorld (w : Server) (ctx : CallContext) (r : WebRequest) :
    (w.authorize ctx r).1.toWorld = w.toWorld := by
  unfold authorize
  split_ifs
  · rfl
  · exact isClientSecretValid_toWorld ..

theorem isClientSecretValid_eq (w : Server) (hne : secret ≠ []) :
    (w.isClientSecretValid (some secret)).2
      = memoized (·.clientSecrets secret) (·.db.spApiClientIsAuthorized secret) w := by
  have hs : isNullOrEmpty (some secret) = false := by simpa [isNullOrEmpty] using hne
  unfold isClientSecretValid memoized
  rw [if_neg (by simp [hs])]
  simp only [Option.getD_some]
  rcases w.clientSecrets secret with _ | b
  · dsimp only
    split <;> simp_all
  · rfl

theorem isClientSecretValid_clientSecrets (w : Server) (s : Option Text) (secret : Text) :
    (w.isClientSecretValid s).1.clientSecrets secret = w.clientSecrets secret ∨
      s = some secret ∧ w.clientSecrets secret = none ∧ ∃ b,
        w.db.spApiClientIsAuthorized secret = .ok b ∧
        (w.isClientSecretValid s).1.clientSecrets secret = some b := by
  unfold isClientSecretValid
  rcases s with _ | s
  · exact .inl rfl
  split_ifs
  · exact .inl rfl
  simp only [Option.getD_some]
  rcases hc : w.clientSecrets s with _ | b
  · rcases hp : w.db.spApiClientIsAuthorized s with e | b
    · exact .inl rfl
    · by_cases hs : secret = s
      · subst hs
        exact .inr ⟨rfl, hc, b, hp, Function.update_self ..⟩
      · exact .inl (Function.update_of_ne hs ..)
  · exact .inl rfl

theorem isClientSecretValid_stores {b : Bool} (hne : secret ≠ [])
    (hc : w.clientSecrets secret = none) (hp : w.db.spApiClientIsAuthorized secret = .ok b) :
    (w.isClientSecretValid (some secret)).1.clientSecrets secret = some b := by
  have hs : isNullOrEmpty (some secret) = false := by simpa [isNullOrEmpty] using hne
  simp [isClientSecretValid, hs, hc, hp]

theorem isClientSecretValid_congr {w' : World} (hdb : w'.db = w.db) (s : Option Text) :
    (({ w with toWorld := w' } : Server).isClientSecretValid s).1.clientSecrets
      = (w.isClientSecretValid s).1.clientSecrets := by
  unfold isClientSecretValid
  simp only [hdb]
  split_ifs
  · rfl
  · rcases w.clientSecrets (s.getD []) with _ | b
    · rcases w.db.spApiClientIsAuthorized (s.getD []) with e | b <;> rfl
    · rfl

@[simp] theorem actOn_clientSecrets (w : Server) (ctx : CallContext) (a : Action) :
    (w.actOn ctx a).clientSecrets = w.clientSecrets := by
  unfold actOn
  split <;> rfl

theorem web_clientSecrets (w : Server) (r : WebRequest) (a : Action) :
    (w.web r a).1.clientSecrets
      = if !r.allowAnonymous && (w.sendAsync r.visitGuid r.user).2.isOk then
          (w.isClientSecretValid r.clientSecret).1.clientSecrets
        else w.clientSecrets := by
  have hdb := sendAsync_db w.toWorld r.visitGuid r.user
  unfold web
  rcases hsend : w.sendAsync r.visitGuid r.user with ⟨w', e | ctx⟩
  · simp [Except.isOk, Except.toBool]
  rw [hsend] at hdb
  dsimp only
  rw [apply_ite clientSecrets, actOn_clientSecrets, ite_self]
  unfold authorize
  rcases r.allowAnonymous with _ | _
  · exact isClientSecretValid_congr hdb r.clientSecret
  · rfl

theorem step_clientSecrets (w : Server) (secret : Text) (e : Event) :
    (w.step e).clientSecrets secret = w.clientSecrets secret ∨
      w.checks secret e = true ∧ w.clientSecrets secret = none ∧ ∃ b,
        w.db.spApiClientIsAuthorized secret = .ok b ∧
        (w.step e).clientSecrets secret = some b := by
  cases e with
  | web r a =>
    show (w.web r a).1.clientSecrets secret = _ ∨ _ ∧ _ ∧ ∃ b, _ ∧
      (w.web r a).1.clientSecrets secret = _
    rw [web_clientSecrets]
    split_ifs with hok
    · rcases isClientSecretValid_clientSecrets w r.clientSecret secret with h | ⟨hs, h⟩
      · exact .inl h
      · refine .inr ⟨?_, h⟩
        simp only [checks]
        rw [Bool.and_assoc, hok, hs]
        simp
    · exact .inl rfl
  | createVisit | evict | clients => exact .inl rfl

theorem memoizes_secret (hne : secret ≠ []) :
    Memoizes step (fun w e => w.checks secret e) (·.clientSecrets secret)
      (·.db.spApiClientIsAuthorized secret) := by
  refine ⟨fun w e b h => ?_, fun w e b h hc hp => ?_, fun w e h hc => ?_, fun w e x h hx => ?_,
    fun w w' x hx => ?_⟩
  · rcases step_clientSecrets w secret e with hs | ⟨-, hn, -⟩
    · exact hs.trans h
    · exact absurd (h.symm.trans hn) (by simp)
  · cases e with
    | web r a =>
      simp only [checks, Bool.and_assoc, Bool.and_eq_true, decide_eq_true_eq] at hc
      obtain ⟨hs, hok⟩ := hc
      show (w.web r a).1.clientSecrets secret = _
      rw [web_clientSecrets, if_pos (by simpa using hok), hs]
      exact isClientSecretValid_stores hne h hp
    | createVisit | evict | clients => cases hc
  · rcases step_clientSecrets w secret e with hs | ⟨hs, -⟩
    · exact hs.trans h
    · exact absurd (hs.symm.trans hc) (by simp)
  · rcases step_clientSecrets w secret e with hs | ⟨-, -, b, hp, -⟩
    · exact hs.trans h
    · exact absurd (hp.symm.trans hx) (by simp)
  · unfold Db.spApiClientIsAuthorized at hx ⊢
    split at hx
    · exact hx
    · cases hx

theorem web_toWorld (w : Server) (r : WebRequest) (a : Action) :
    (w.web r a).1.toWorld = w.toWorld ∨ ∃ key a', (a' = a ∨ a' = .read) ∧
      (w.web r a).1.toWorld = w.toWorld.step (.request key r.user a') := by
  unfold web
  rcases r.visitGuid with _ | key
  · left
    dsimp only [World.sendAsync, actOn, CallContext.ofVisit]
    rw [ite_self, authorize_toWorld]
  · right
    rcases hsend : w.sendAsync (some key) r.user with ⟨w', e | ctx⟩
    · refine ⟨key, .read, .inr rfl, ?_⟩
      simp only [World.step, World.request, hsend]
    · dsimp only
      split_ifs
      · refine ⟨key, a, .inl rfl, ?_⟩
        simp only [World.step, World.request, hsend, actOn]
        rcases ctx.dbVisit with _ | v <;> simp only [authorize_toWorld]
      · refine ⟨key, .read, .inr rfl, ?_⟩
        simp only [World.step, World.request, hsend, World.act]
        rcases ctx.dbVisit with _ | v <;> simp only [authorize_toWorld]

theorem step_sessionInv (hI : w.toWorld.SessionInv) (e : Event)
    (hroom : ∀ a, e = .createVisit a → w.toWorld.Room (.createVisit a)) :
    (w.step e).toWorld.SessionInv := by
  cases e with
  | web r a =>
    show (w.web r a).1.toWorld.SessionInv
    rcases web_toWorld w r a with h | ⟨key, a', -, h⟩ <;> rw [h]
    · exact hI
    · exact World.step_inv hI (.request key r.user a') trivial
  | createVisit a => exact hI.createVisit (hroom a rfl)
  | evict key => exact World.step_inv hI (.evict key) trivial
  | clients rows => exact ⟨⟨hI.visits, hI.guid, hI.cart⟩, hI.row, hI.sequence⟩

/-- In every run of the server, a request gets the visit that its header denotes. -/
theorem session_isolated (hI : w.toWorld.SessionInv) {events : List Event}
    (hroom : RunOk step (fun w e => ∀ a, e = .createVisit a → w.toWorld.Room (.createVisit a)) w
      events) {ctx : CallContext} {v : DBVisit}
    (hsend : ((run step w events).sendAsync r.visitGuid r.user).2 = .ok ctx)
    (hv : ctx.dbVisit = some v) :
    ∃ row ∈ (run step w events).db.visits, r.visitGuid.bind Guid.parse = some row.visitGuid ∧
      row.visitGuid = v.visitGuid ∧ row.siteID = ctx.siteID ∧ row.id = ctx.visitID := by
  have hI' : (run step w events).toWorld.SessionInv :=
    run_inv (I := fun w => w.toWorld.SessionInv) (fun _ e hI he => step_sessionInv hI e he) hI hroom
  rcases hr : r.visitGuid with _ | key
  · rw [hr] at hsend
    cases hsend
    cases hv
  rw [hr] at hsend
  rcases hget : ((run step w events).visitGet key).2 with e | found
  · simp [World.sendAsync, hget, Except.map] at hsend
  simp only [World.sendAsync, hget, Except.map, Except.ok.injEq] at hsend
  subst hsend
  rcases found with _ | v'
  · cases hv
  cases hv
  obtain ⟨hcache, hguid⟩ := World.visitGet_found hI' hget
  obtain ⟨row, hrow, hsite, hid, hrg⟩ := (hI'.visitGet key).row key v hcache
  rw [World.visitGet_db] at hrow
  exact ⟨row, hrow, by rw [hrg]; exact hguid, hrg, hsite, hid⟩

/-- For every sequence of requests and of changes of the clients since the process started, a
request with a secret, a known visit and the address of its user is decided as the procedure did
when the secret was first checked. -/
theorem authorized_as_first_checked (hstart : ∀ s, w.clientSecrets s = none) (es : List Event)
    (hne : secret ≠ []) (hsecret : r.clientSecret = some secret) (hchecked :
      r.allowAnonymous = false)
    (hip : isNullOrEmpty r.userIP = false) {w' : World} {ctx : CallContext}
    (hsend : (run step w es).sendAsync r.visitGuid r.user = (w', .ok ctx))
    (hvisit : ctx.dbVisit ≠ none) (a : Action) :
    ((run step w es).web r a).2 = (runUntil step (fun w e => w.checks secret e) w
      es).db.spApiClientIsAuthorized secret := by
  have hdb : w'.db = (run step w es).db := by
    have := sendAsync_db (run step w es).toWorld r.visitGuid r.user
    rwa [hsend] at this
  have hrun := memoized_run (memoizes_secret hne) es (hstart secret)
  have hdecision : ((run step w es).web r a).2
      = (({ run step w es with toWorld := w' } : Server).isClientSecretValid (some secret)).2 := by
    obtain ⟨v, hv⟩ := Option.ne_none_iff_exists'.1 hvisit
    unfold web
    simp only [hsend, authorize, hchecked, Bool.false_eq_true, if_false, isAuthorized, hsecret, hip,
      hv, Option.isSome_some, Bool.not_false, Bool.and_true]
    rcases (({ run step w es with toWorld := w' } : Server).isClientSecretValid
      (some secret)).2 with e | b <;> rfl
  rw [hdecision, isClientSecretValid_eq _ hne, ← hrun]
  unfold memoized
  simp only [hdb]

end Server

def clientRow (isEnabled : Bool) : ApiClientRow where
  siteID := 1
  apiClientID := 1
  clientSecret := ⟨"5f0c9d1e-3b7a-4c52-8e64-9a1b2c3d4e5f".toList, by decide⟩
  isEnabled := isEnabled

def started (isEnabled : Bool) : Server where
  toWorld := { resumed with db := { resumed.db with apiClients := [clientRow isEnabled] } }
  clientSecrets := fun _ => none

def call : WebRequest where
  visitGuid := some signedIn.visitGuid.text
  clientSecret := some (clientRow true).clientSecret.text
  userIP := some "10.0.0.1".toList

/-- The client is checked by a first request and disabled before the second one. -/
def disabling : List Server.Event := [.web call .read, .clients [clientRow false]]

theorem started_authorized :
    ((run Server.step (started true) disabling).web call .read).2 = .ok true := by
  have hsend : (run Server.step (started true) disabling).sendAsync call.visitGuid call.user
      = (((run Server.step (started true) disabling).visitGet signedIn.visitGuid.text).1,
        .ok (CallContext.ofVisit none
          (some (Db.readVisit signedIn (some { shopper with id := 7 }))))) := rfl
  exact Server.authorized_as_first_checked (w := started true) (r := call) (fun _ => rfl) disabling
    (by decide) rfl rfl rfl hsend (by decide) .read

theorem started_isolated : ∃ row ∈ (run Server.step (started true) [.web call .read]).db.visits,
    call.visitGuid.bind Guid.parse = some row.visitGuid := by
  have hI : (started true).SessionInv := ⟨⟨resumed_inv.visits, resumed_inv.guid, resumed_inv.cart⟩,
    resumed_inv.row, resumed_inv.sequence⟩
  obtain ⟨row, hrow, hguid, -⟩ := Server.session_isolated (r := call) hI (show RunOk _ _ _
    [.web call .read] from ⟨fun _ h => (by cases h), trivial⟩) rfl rfl
  exact ⟨row, hrow, hguid⟩

/-- A secret that was disabled is still accepted, and one that was enabled is still refused. -/
theorem started_outdated :
    let disabled := run Server.step (started true) [.web call .read, .clients [clientRow false]]
    let enabled := run Server.step (started false) [.web call .read, .clients [clientRow true]]
    let secret := (clientRow true).clientSecret.text
    disabled.db.spApiClientIsAuthorized secret = .ok false ∧
    (disabled.web call .read).2 = .ok true ∧
    enabled.db.spApiClientIsAuthorized secret = .ok true ∧
    (enabled.web call .read).2 = .ok false := by
  refine ⟨?_, ?_, ?_, ?_⟩ <;> decide

end AciX
