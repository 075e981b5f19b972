import AciX.Run
import AciX.Guid
import AciX.Sql.Rows

/-!
# Access tokens

`spAccessTokenRefresh` puts a new access token into the row of a refresh token and leaves the expiry
as it was. So a new token is good for less than a lifetime, unless it is got in the moment of the
creation (`tokens_renewed_iff`). A statement that violates a unique index of the table fails as a
whole.
-/

namespace AciX

open List Sql

structure AccessTokenRow where
  accessToken : Text
  accessTokenExpiry : ℤ
  refreshToken : Text
  refreshTokenExpiry : ℤ
  dateCreated : ℤ
  userID : ℤ
  deriving DecidableEq

namespace AccessTokenRow

def accessKey (r : AccessTokenRow) : Text := collate r.accessToken

def refreshKey (r : AccessTokenRow) : Text × ℤ := (collate r.refreshToken, r.refreshTokenExpiry)

def lifetime (r : AccessTokenRow) : ℤ := r.accessTokenExpiry - r.dateCreated

def hasToken (accessToken : Text) (r : AccessTokenRow) : Bool :=
  textEq r.accessToken (varchar 128 accessToken)

def refreshable (now : ℤ) (refreshToken : Option Text) (r : AccessTokenRow) : Bool :=
  refreshToken.any (fun t => textEq r.refreshToken (varchar 128 t)) &&
    r.refreshTokenExpiry > now

end AccessTokenRow

open AccessTokenRow

structure TokenTable where
  rows : List AccessTokenRow
  accessTokens : Sql.Unique accessKey rows
  refreshTokens : Sql.Unique refreshKey rows

inductive TokenError where
  | invalidRefreshToken
  | duplicateKey

inductive TokenCall where
  | create (userID accessTokenExpirySecs refreshTokenExpiryHours : ℤ) (accessToken refreshToken :
    Guid)
  | refresh (refreshToken : Option Text) (accessToken : Guid)
  | get (accessToken refreshToken : Option Text)

namespace TokenTable

section Model

variable (t : TokenTable) (now : ℤ)

def empty : TokenTable := ⟨[], nodup_nil, nodup_nil⟩

def put (rows : List AccessTokenRow) : Option TokenTable :=
  if h : Sql.Unique accessKey rows ∧ Sql.Unique refreshKey rows then some ⟨rows, h.1, h.2⟩ else none

def spAccessTokenGet (accessToken refreshToken : Option Text) : List AccessTokenRow :=
  match accessToken with
  | some a => t.rows.filter fun r => r.hasToken a && r.accessTokenExpiry > now
  | none => t.rows.filter (·.refreshable now refreshToken)

def created (userID accessTokenExpirySecs refreshTokenExpiryHours : ℤ)
    (accessToken refreshToken : Guid) : AccessTokenRow where
  accessToken := accessToken.text
  accessTokenExpiry := now + accessTokenExpirySecs * 1000
  refreshToken := refreshToken.text
  refreshTokenExpiry := now + refreshTokenExpiryHours * 3600000
  dateCreated := now
  userID := userID

def spAccessTokenCreate (userID accessTokenExpirySecs refreshTokenExpiryHours : ℤ)
    (accessToken refreshToken : Guid) : TokenTable × Except TokenError (List AccessTokenRow) :=
  match put (t.rows ++ [created now userID accessTokenExpirySecs refreshTokenExpiryHours accessToken
    refreshToken]) with
  | some t' => (t', .ok (t'.spAccessTokenGet now (some accessToken.text) none))
  | none => (t, .error .duplicateKey)

def renew (refreshToken : Option Text) (accessToken : Guid) (r : AccessTokenRow) : AccessTokenRow :=
  if r.refreshable now refreshToken then { r with accessToken := accessToken.text } else r

def spAccessTokenRefresh (refreshToken : Option Text) (accessToken : Guid) :
    TokenTable × Except TokenError (List AccessTokenRow) :=
  if t.rows.any (·.refreshable now refreshToken) then
    match put (t.rows.map (renew now refreshToken accessToken)) with
    | some t' => (t', .ok (t'.spAccessTokenGet now (some accessToken.text) none))
    | none => (t, .error .duplicateKey)
  else (t, .error .invalidRefreshToken)

def call : TokenCall → TokenTable × Except TokenError (List AccessTokenRow)
  | .create userID secs hours a r => t.spAccessTokenCreate now userID secs hours a r
  | .refresh r a => t.spAccessTokenRefresh now r a
  | .get a r => (t, .ok (t.spAccessTokenGet now a r))

def step (c : ℤ × TokenCall) : TokenTable := (t.call c.1 c.2).1

end Model

section Steps

variable {t t' : TokenTable} {now : ℤ} {r r' : AccessTokenRow} {refreshToken : Option Text} {a :
    Guid}

theorem put_eq_some {rows : List AccessTokenRow} : put rows = some t ↔ t.rows = rows := by
  unfold put
  split_ifs with h
  · rw [Option.some.injEq]
    refine ⟨fun he => he ▸ rfl, fun he => ?_⟩
    cases t
    cases he
    rfl
  · simp only [false_iff]
    intro he
    exact h ⟨he ▸ t.accessTokens, he ▸ t.refreshTokens⟩

theorem hasToken_guid : r.hasToken a.text = true ↔ r.accessKey = collate a.text := by
  have hlen : varchar 128 a.text = a.text := take_of_length_le (by rw [a.length_text]; omega)
  rw [hasToken, hlen, textEq_iff, accessKey]

@[simp] theorem refreshKey_renew : (renew now refreshToken a r).refreshKey = r.refreshKey := by
  unfold renew
  split_ifs <;> rfl

/-- The refresh token is that of one row only, and no other row has the new access token. -/
def Renews (t : TokenTable) (now : ℤ) (refreshToken : Option Text) (a : Guid) (r : AccessTokenRow) :
    Prop :=
  r ∈ t.rows ∧ r.refreshable now refreshToken = true ∧ ∀ r' ∈ t.rows, r' ≠ r →
    r'.refreshable now refreshToken = false ∧ r'.hasToken a.text = false

theorem Renews.unique (h : t.Renews now refreshToken a r) :
    Sql.Unique accessKey (t.rows.map (renew now refreshToken a)) := by
  obtain ⟨hr, href, hother⟩ := h
  unfold Sql.Unique
  rw [map_map]
  have hnew : accessKey (renew now refreshToken a r) = collate a.text := by
    simp [renew, href, accessKey]
  have hold : ∀ r' ∈ t.rows, r' ≠ r → accessKey (renew now refreshToken a r') = r'.accessKey ∧
      r'.accessKey ≠ collate a.text := by
    intro r' hr' hne
    obtain ⟨h1, h2⟩ := hother r' hr' hne
    refine ⟨by simp [renew, h1], fun he => ?_⟩
    rw [hasToken_guid.2 he] at h2
    cases h2
  refine (nodup_map_iff_inj_on t.accessTokens.nodup).2 fun x hx y hy hxy => ?_
  simp only [Function.comp_apply] at hxy
  by_cases hxr : x = r <;> by_cases hyr : y = r
  · rw [hxr, hyr]
  · rw [hxr, hnew, (hold y hy hyr).1] at hxy
    exact absurd hxy.symm (hold y hy hyr).2
  · rw [hyr, hnew, (hold x hx hxr).1] at hxy
    exact absurd hxy (hold x hx hxr).2
  · rw [(hold x hx hxr).1, (hold y hy hyr).1] at hxy
    exact t.accessTokens.eq hx hy hxy

theorem renews_of_map (h : t'.rows = t.rows.map (renew now refreshToken a)) (hr : r ∈ t.rows)
    (href : r.refreshable now refreshToken = true) : t.Renews now refreshToken a r := by
  refine ⟨hr, href, fun r' hr' hne => ?_⟩
  have hnew : accessKey (renew now refreshToken a r) = collate a.text := by
    simp [renew, href, accessKey]
  have hsame : accessKey (renew now refreshToken a r') ≠ collate a.text := by
    intro he
    have hmem : ∀ x ∈ t.rows, renew now refreshToken a x ∈ t'.rows := fun x hx => by
      rw [h]
      exact mem_map_of_mem hx
    have heq := t'.accessTokens.eq (hmem r' hr') (hmem r hr) (he.trans hnew.symm)
    have hkey := congrArg refreshKey heq
    rw [refreshKey_renew, refreshKey_renew] at hkey
    exact hne (t.refreshTokens.eq hr' hr hkey)
  have hfalse : r'.refreshable now refreshToken = false := by
    by_contra hc
    rw [Bool.not_eq_false] at hc
    simp [renew, hc, accessKey] at hsame
  refine ⟨hfalse, ?_⟩
  by_contra hc
  simp only [renew, hfalse, Bool.false_eq_true, if_false] at hsame
  exact hsame (hasToken_guid.1 (by simpa using hc))

theorem refresh_ok_iff :
    (∃ rows, (t.spAccessTokenRefresh now refreshToken a).2 = .ok rows) ↔
      ∃ r, t.Renews now refreshToken a r := by
  unfold spAccessTokenRefresh
  constructor
  · rintro ⟨rows, h⟩
    split_ifs at h with hany
    obtain ⟨r, hr, href⟩ := any_eq_true.1 hany
    split at h
    · rename_i t' hput
      exact ⟨r, renews_of_map (put_eq_some.1 hput) hr href⟩
    · cases h
  · rintro ⟨r, h⟩
    rw [if_pos (any_eq_true.2 ⟨r, h.1, h.2.1⟩)]
    have hput := put_eq_some (t := ⟨_, h.unique, t.refreshTokens.map (by simp)⟩).2 rfl
    rw [hput]
    exact ⟨_, rfl⟩

theorem Renews.rows (h : t.Renews now refreshToken a r) :
    (t.step (now, .refresh refreshToken a)).rows = t.rows.map (renew now refreshToken a) := by
  have hput := put_eq_some (t := ⟨_, h.unique, t.refreshTokens.map (by simp)⟩).2 rfl
  simp only [step, call, spAccessTokenRefresh]
  rw [if_pos (any_eq_true.2 ⟨r, h.1, h.2.1⟩), hput]

theorem Renews.mem (h : t.Renews now refreshToken a r) :
    { r with accessToken := a.text } ∈ (t.step (now, .refresh refreshToken a)).rows := by
  rw [h.rows]
  refine mem_map.2 ⟨r, h.1, ?_⟩
  unfold renew
  rw [if_pos h.2.1]

theorem step_rows (t : TokenTable) (c : ℤ × TokenCall) :
    (t.step c).rows = t.rows ∨
      (∃ userID secs hours a r, c.2 = .create userID secs hours a r ∧
        (t.step c).rows = t.rows ++ [created c.1 userID secs hours a r]) ∨
      ∃ refreshToken a, c.2 = .refresh refreshToken a ∧
        (t.step c).rows = t.rows.map (renew c.1 refreshToken a) := by
  obtain ⟨now, c⟩ := c
  cases c with
  | create userID secs hours a r =>
    simp only [step, call, spAccessTokenCreate]
    split
    · rename_i hput
      exact .inr (.inl ⟨_, _, _, _, _, rfl, put_eq_some.1 hput⟩)
    · exact .inl rfl
  | refresh refreshToken a =>
    simp only [step, call, spAccessTokenRefresh]
    split_ifs
    · split
      · rename_i hput
        exact .inr (.inr ⟨_, _, rfl, put_eq_some.1 hput⟩)
      · exact .inl rfl
    · exact .inl rfl
  | get a r => exact .inl rfl

end Steps

section Runs

def Refreshes (r : AccessTokenRow) : TokenCall → Prop
  | .refresh refreshToken _ =>
    refreshToken.any (fun t => textEq r.refreshToken (varchar 128 t)) = true
  | _ => False

def Issues (accessToken : Text) : TokenCall → Prop
  | .create _ _ _ a _ => textEq a.text (varchar 128 accessToken) = true
  | .refresh _ a => textEq a.text (varchar 128 accessToken) = true
  | .get _ _ => False

variable {t : TokenTable} {c : ℤ × TokenCall} {r : AccessTokenRow}

theorem mem_step (hr : r ∈ t.rows) (hc : ¬Refreshes r c.2) : r ∈ (t.step c).rows := by
  obtain h | ⟨userID, secs, hours, a, r', -, h⟩ | ⟨refreshToken, a, hcall, h⟩ := step_rows t c
  · rw [h]
    exact hr
  · rw [h]
    exact mem_append_left _ hr
  · rw [h]
    refine mem_map.2 ⟨r, hr, ?_⟩
    have hfalse : refreshable c.1 refreshToken r = false := by
      simp only [hcall, Refreshes, Bool.not_eq_true] at hc
      rw [refreshable, hc, Bool.false_and]
    simp [renew, hfalse]

theorem mem_of_mem_step {accessToken : Text} (hr : r ∈ (t.step c).rows)
    (hc : ¬Issues accessToken c.2) (htoken : r.hasToken accessToken = true) : r ∈ t.rows := by
  obtain h | ⟨userID, secs, hours, a, r', hcall, h⟩ | ⟨refreshToken, a, hcall, h⟩ := step_rows t c
  · rwa [h] at hr
  · rw [h, mem_append, mem_singleton] at hr
    rcases hr with hr | rfl
    · exact hr
    · rw [hcall] at hc
      exact absurd htoken hc
  · rw [h] at hr
    obtain ⟨r', hr', rfl⟩ := mem_map.1 hr
    unfold renew at htoken ⊢
    split_ifs at htoken ⊢
    · rw [hcall] at hc
      exact absurd htoken hc
    · exact hr'

/-- At any point of the calls: a refresh with success has put a new token into its row, and the new
token is good for the lifetime of the row, until there is another refresh of it. -/
def Renewed (t : TokenTable) (calls : List (ℤ × TokenCall)) : Prop :=
  ∀ before now refreshToken a after, before ++ (now, .refresh refreshToken a) :: after <+: calls →
    (∃ rows, ((run step t before).spAccessTokenRefresh now refreshToken a).2 = .ok rows) →
    ∃ r ∈ (run step t before).rows, r.refreshable now refreshToken = true ∧
      ((∀ c ∈ after, ¬Refreshes r c.2) → ∀ now', now ≤ now' → now' < now + r.lifetime →
        { r with accessToken := a.text } ∈
          (run step t (before ++ (now, .refresh refreshToken a) :: after)).spAccessTokenGet now'
            (some a.text) none)

/-- At any point of the calls: a token whose expiry is over is not found, until it is given out
again. -/
def NeverStale (t : TokenTable) (calls : List (ℤ × TokenCall)) : Prop :=
  ∀ before after, before ++ after <+: calls → ∀ accessToken, (∀ c ∈ after, ¬Issues accessToken c.2)
    →
    ∀ r ∈ (run step t before).rows, r.hasToken accessToken = true → ∀ now,
      r.accessTokenExpiry ≤ now →
      (run step t (before ++ after)).spAccessTokenGet now (some accessToken) none = []

/-- A refresh is made in the moment its row is created, or the row is without a lifetime. -/
def InTime (t : TokenTable) : ℤ × TokenCall → Prop
  | (now, .refresh refreshToken a) => ∀ r, t.Renews now refreshToken a r →
    r.lifetime ≤ 0 ∨ now ≤ r.dateCreated
  | _ => True

theorem Renews.eq {now : ℤ} {refreshToken : Option Text} {a : Guid} {r' : AccessTokenRow}
    (h : t.Renews now refreshToken a r) (hr' : r' ∈ t.rows)
    (href : r'.refreshable now refreshToken = true) : r' = r := by
  by_contra hne
  rw [(h.2.2 r' hr' hne).1] at href
  cases href

theorem mem_run {calls : List (ℤ × TokenCall)} (hr : r ∈ t.rows)
    (hc : ∀ c ∈ calls, ¬Refreshes r c.2) : r ∈ (run step t calls).rows :=
  run_inv (I := fun t : TokenTable => r ∈ t.rows) (fun _ _ hr hc => mem_step hr hc) hr
    (runOk_of_forall hc)

theorem mem_get_iff {now : ℤ} {a : Guid} :
    { r with accessToken := a.text } ∈ t.spAccessTokenGet now (some a.text) none ↔
      { r with accessToken := a.text } ∈ t.rows ∧ now < r.accessTokenExpiry := by
  simp only [spAccessTokenGet, mem_filter, Bool.and_eq_true, decide_eq_true_eq, gt_iff_lt,
    hasToken_guid]
  exact ⟨fun h => ⟨h.1, h.2.2⟩, fun h => ⟨h.1, rfl, h.2⟩⟩

theorem renewed_iff {calls : List (ℤ × TokenCall)} :
    Renewed t calls ↔ RunOk step InTime t calls := by
  rw [runOk_iff_forall]
  constructor
  · intro h before c hpre
    obtain ⟨now, c⟩ := c
    cases c with
    | create => trivial
    | get => trivial
    | refresh refreshToken a =>
      intro r hrenews
      obtain ⟨r', hr', href, hgood⟩ := h before now refreshToken a [] hpre
        (refresh_ok_iff.2 ⟨r, hrenews⟩)
      obtain rfl := hrenews.eq hr' href
      by_contra hnot
      rw [not_or, not_le, not_le] at hnot
      -- the last moment of the lifetime
      have hlast := hgood (by simp) (now + r'.lifetime - 1) (by omega) (by omega)
      have hlt := (mem_get_iff.1 hlast).2
      unfold lifetime at hlt
      omega
  · intro h before now refreshToken a after hpre hok
    obtain ⟨r, hrenews⟩ := refresh_ok_iff.1 hok
    refine ⟨r, hrenews.1, hrenews.2.1, fun hafter now' hle hlt => ?_⟩
    have hcall : before ++ [(now, .refresh refreshToken a)] <+: calls :=
      List.IsPrefix.trans ⟨after, by simp⟩ hpre
    have hin := h before _ hcall r hrenews
    rw [run_append, run_cons, mem_get_iff]
    refine ⟨mem_run hrenews.mem hafter, ?_⟩
    unfold lifetime at hin hlt
    omega

theorem neverStale (t : TokenTable) (calls : List (ℤ × TokenCall)) : NeverStale t calls := by
  intro before after _ accessToken hafter r hr htoken now hle
  rw [run_append]
  have hinv : ∀ r' ∈ (run step (run step t before) after).rows, r'.hasToken accessToken = true →
      r'.accessTokenExpiry ≤ now := by
    refine run_inv (I := fun t : TokenTable => ∀ r' ∈ t.rows, r'.hasToken accessToken = true →
      r'.accessTokenExpiry ≤ now) (fun t c hI hc r' hr' ht => ?_) (fun r' hr' ht => ?_)
      (runOk_of_forall hafter)
    · exact hI r' (mem_of_mem_step hr' hc ht) ht
    · have hkey : r'.accessKey = r.accessKey := (textEq_iff.1 ht).trans (textEq_iff.1 htoken).symm
      rwa [(run step t before).accessTokens.eq hr' hr hkey]
  simp only [spAccessTokenGet, filter_eq_nil_iff, Bool.and_eq_true, decide_eq_true_eq,
    gt_iff_lt, not_and, not_lt]
  exact hinv

/-- Refreshed tokens are good for their lifetime and none is found when it is over exactly if every
refresh of the run is in time. -/
theorem tokens_renewed_iff (t : TokenTable) (calls : List (ℤ × TokenCall)) :
    Renewed t calls ∧ NeverStale t calls ↔ RunOk step InTime t calls := by
  rw [renewed_iff]
  exact ⟨fun h => h.1, fun h => ⟨h, neverStale t calls⟩⟩

def guidA : Guid := ⟨"0f8fad5b-d9cb-469f-a165-70867728950e".toList, by decide⟩

def guidB : Guid := ⟨"7c9e6679-7425-40de-944b-e07fc1f90ae7".toList, by decide⟩

def refreshedLater : List (ℤ × TokenCall) :=
  [(0, .create 7 1200 720 guidA guidA), (600000, .refresh (some guidA.text) guidB)]

theorem refreshed_later_not_renewed : ¬Renewed empty refreshedLater := by
  rw [renewed_iff]
  rintro ⟨-, h, -⟩
  have hrows : (empty.step (0, .create 7 1200 720 guidA guidA)).rows =
      [created 0 7 1200 720 guidA guidA] := by decide
  have hrow := h (created 0 7 1200 720 guidA guidA) ⟨by rw [hrows]; simp, by decide, ?_⟩
  · simp [lifetime, created] at hrow
  · intro r' hr' hne
    rw [hrows, mem_singleton] at hr'
    exact absurd hr' hne

end Runs

end TokenTable

end AciX
