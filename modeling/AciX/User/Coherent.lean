import AciX.Cache.View
import AciX.Run
import AciX.User.Write

/-!
# What `User.Get` answers after writes

A user is cached by id and by each text they were looked up with. The requests that write to `Users`
bring the entry by id up to date, except a declined checkout, and none of them the entries by text
(`stale_answers`). `Answers` says that every answer of `User.Get` is what the table holds, and
`Keeps` that a request will not leave a wrong entry behind: `handle_shows_iff` is the step, and
`answers_iff` follows a run.
-/

namespace AciX

open EntityCache List Sql

namespace UserWorld

section Model

variable (siteID : ℕ) (w : UserWorld)

def userOf (userID : ℤ) : Option DBUser := Users.userOf DBUser.toUserRow w.users siteID userID

def userByEmailAddress (emailAddress : Text) : Option DBUser :=
  Users.userByEmailAddress DBUser.toUserRow w.users siteID emailAddress

structure Answers : Prop where
  byID : ∀ k, (w.userGet siteID k).2 = rendered (w.userOf siteID k)
  byEmailAddress : ∀ t, (w.userGetByEmailAddress siteID t).2 =
    rendered (w.userByEmailAddress siteID t)

def target (p : UserUpdate) : Option DBUser :=
  w.users.find? fun u => eqNull (some u.id) (Users.updateID siteID w.users p)

def Unlisted (u : DBUser) : Prop :=
  ∀ t, w.byEmailAddress t ≠ none → w.userByEmailAddress siteID t ≠ some u

/-- The update does not show, or nobody has looked the user up by a text. -/
def Unnoticed (p : UserUpdate) (u : DBUser) : Prop :=
  (u.updated p).render = u.render ∨ w.Unlisted siteID u

/-- A creation needs that its email address was not looked up before, unless it is refused. A login
must not create a user, and may update one only unnoticed, even by its own lookup. An update has to
go unnoticed, and one from the wallet has to be for a user of the site. A checkout must not be
declined. -/
def Keeps : ℤ × UserRequest → Prop
  | (_, .create (.ok (sf, _))) => Users.hasExternalID siteID w.users sf.userId = true ∨
      ∀ t, textEq (varchar 128 sf.userName) (varchar 128 t) = true →
        w.byEmailAddress t ≠ some .notInDB
  | (_, .authenticate t (.ok l)) =>
    match w.userByEmailAddress siteID t with
    | none => l.storefrontUser.isOk = true →
        Users.hasExternalID siteID w.users l.externalID = true
    | some v => ∀ u, w.target siteID l.update = some u →
        (u.updated l.update).render = u.render ∨ w.Unlisted siteID u ∧ v ≠ u
  | (callerID, .update user (.ok _)) => callerID = user.userID →
      ∀ u, w.userOf siteID callerID = some u → w.Unnoticed siteID user.update u
  | (callerID, .updateWallet cards) => ∀ p, walletUpdate w.codePage cards callerID = .ok p →
      ∀ u ∈ w.users, u.id = callerID → u.siteID = siteID ∧ w.Unnoticed siteID p u
  | (callerID, .checkout true) => siteID ≠ 0 →
      ∀ u, w.userOf siteID callerID = some u → u.hasValidPaymentMethod = false
  | _ => True

structure Inv : Prop where
  keys : Users.Keys DBUser.toUserRow w.users
  identity : Sql.Unique (fun u : DBUser => u.id) w.users

structure Shows : Prop where
  byID : EntityCache.Shows DBUser.render (w.userOf siteID) w.byID
  byEmailAddress : EntityCache.Shows DBUser.render (w.userByEmailAddress siteID) w.byEmailAddress

end Model

variable {siteID : ℕ} {w : UserWorld}

theorem rendered_inj {o o' : Option DBUser} :
    rendered o = rendered o' ↔ o.map DBUser.render = o'.map DBUser.render := by
  rcases o with _ | u <;> rcases o' with _ | u' <;> simp [rendered]

theorem lookup_eq (hI : w.Inv) (force : Bool) (k : ℤ) : w.lookup siteID force k =
    ({ w with byID := refreshed (w.userOf siteID) force [k] w.byID },
      answer (w.userOf siteID) force w.byID k) := by
  unfold lookup
  rw [get_eq (hI.keys.siteUserCache_reads siteID)]
  rfl

theorem lookupByEmailAddress_eq (hI : w.Inv) (force : Bool) (t : Text) :
    w.lookupByEmailAddress siteID force t =
      ({ w with byEmailAddress :=
          refreshed (w.userByEmailAddress siteID) force [t] w.byEmailAddress },
        answer (w.userByEmailAddress siteID) force w.byEmailAddress t) := by
  have hdb : ((Users.siteUserCacheByEmailAddress DBUser.toUserRow w.users siteID).getFromDB
      [t]).head? = w.userByEmailAddress siteID t := by
    rw [hI.keys.getFromDB_cons]
    exact Option.head?_toList
  unfold lookupByEmailAddress
  rw [get_eq_of_head hdb]

theorem answers_iff_shows (hI : w.Inv) : w.Answers siteID ↔ w.Shows siteID := by
  have hid : (∀ k, (w.userGet siteID k).2 = rendered (w.userOf siteID k)) ↔
      EntityCache.Shows DBUser.render (w.userOf siteID) w.byID := by
    simp only [userGet, lookup_eq hI, rendered_inj, shows_iff]
  have hemail : (∀ t, (w.userGetByEmailAddress siteID t).2 =
      rendered (w.userByEmailAddress siteID t)) ↔
      EntityCache.Shows DBUser.render (w.userByEmailAddress siteID) w.byEmailAddress := by
    simp only [userGetByEmailAddress, lookupByEmailAddress_eq hI, rendered_inj, shows_iff]
  exact ⟨fun h => ⟨hid.1 h.byID, hemail.1 h.byEmailAddress⟩,
    fun h => ⟨hid.2 h.byID, hemail.2 h.byEmailAddress⟩⟩

theorem Inv.lookup (hI : w.Inv) (force : Bool) (k : ℤ) : (w.lookup siteID force k).1.Inv := by
  rw [lookup_eq hI]
  exact ⟨hI.keys, hI.identity⟩

theorem Shows.lookup (h : w.Shows siteID) (hI : w.Inv) (force : Bool) (k : ℤ) :
    (w.lookup siteID force k).1.Shows siteID := by
  rw [lookup_eq hI]
  exact ⟨h.byID.refreshed force [k], h.byEmailAddress⟩

theorem Inv.lookupByEmailAddress (hI : w.Inv) (force : Bool) (t : Text) :
    (w.lookupByEmailAddress siteID force t).1.Inv := by
  rw [lookupByEmailAddress_eq hI]
  exact ⟨hI.keys, hI.identity⟩

theorem Shows.lookupByEmailAddress (h : w.Shows siteID) (hI : w.Inv) (force : Bool) (t : Text) :
    (w.lookupByEmailAddress siteID force t).1.Shows siteID := by
  rw [lookupByEmailAddress_eq hI]
  exact ⟨h.byID, h.byEmailAddress.refreshed force [t]⟩

section Creation

variable {n : NewUser}

theorem id_lt_newRow {u : DBUser} (hu : u ∈ w.users) :
    u.id < (Users.newRow siteID w.users w.admins n).id := by
  have := le_maxFrom (b := 0) (mem_map_of_mem (f := fun u : DBUser => u.id) hu)
  show u.id < 1 + maxFrom 0 (w.users.map fun u : DBUser => u.id)
  omega

theorem Inv.insert (hI : w.Inv) (siteID : ℕ) (n : NewUser) :
    ({ w with users := w.users ++ [Users.newRow siteID w.users w.admins n] } : UserWorld).Inv := by
  have hid : Sql.Unique (fun u : DBUser => u.id)
      (w.users ++ [Users.newRow siteID w.users w.admins n]) := by
    refine hI.identity.append (nodup_singleton _) fun a ha b hb => ?_
    obtain rfl := mem_singleton.1 hb
    exact (id_lt_newRow ha).ne
  refine ⟨⟨hid.of_key fun a b h => (Prod.mk.inj h).2, fun u hu => ?_, fun u hu a ha => ?_⟩, hid⟩
  · rcases mem_append.1 hu with hu | hu
    · exact hI.keys.ids u hu
    · obtain rfl := mem_singleton.1 hu
      have := base_le_maxFrom 0 (w.users.map fun u : DBUser => u.id)
      show (1 : ℤ) ≤ 1 + maxFrom 0 (w.users.map fun u : DBUser => u.id)
      omega
  · rcases mem_append.1 hu with hu | hu
    · exact hI.keys.emailAddresses u hu a ha
    · obtain rfl := mem_singleton.1 hu
      obtain rfl := Option.some.inj ha
      exact length_take_le 128 n.emailAddress

theorem userOf_insert (k : ℤ) :
    Users.userOf DBUser.toUserRow (w.users ++ [Users.newRow siteID w.users w.admins n]) siteID k =
      if k = (Users.newRow siteID w.users w.admins n).id then
        some (Users.newRow siteID w.users w.admins n)
      else w.userOf siteID k := by
  unfold Users.userOf
  rw [find?_append]
  split_ifs with hk
  · have hnone : w.users.find? (fun u => u.siteID = siteID && u.id = k) = none := by
      rw [find?_eq_none]
      intro u hu hp
      simp only [Bool.and_eq_true, decide_eq_true_eq] at hp
      have : u.id < (Users.newRow siteID w.users w.admins n).id := id_lt_newRow hu
      omega
    rw [hnone, Option.none_or]
    refine find?_cons_of_pos ?_
    simp [hk, Users.newRow]
  · rw [find?_cons_of_neg (by simpa using fun _ => Ne.symm hk), find?_nil, Option.or_none]
    rfl

theorem hasEmailAddress_newRow (t : Text) :
    Users.hasEmailAddress DBUser.toUserRow siteID t (Users.newRow siteID w.users w.admins n) =
      textEq (varchar 128 n.emailAddress) (varchar 128 t) := by
  simp [Users.hasEmailAddress, Users.newRow]

theorem userByEmailAddress_insert (t : Text) :
    Users.userByEmailAddress DBUser.toUserRow
        (w.users ++ [Users.newRow siteID w.users w.admins n]) siteID t =
      (w.userByEmailAddress siteID t).or
        (if textEq (varchar 128 n.emailAddress) (varchar 128 t) then
          some (Users.newRow siteID w.users w.admins n) else none) := by
  unfold Users.userByEmailAddress
  rw [find?_append, find?_singleton, hasEmailAddress_newRow]
  rfl

/-- After an insertion an entry by text is wrong if it says that the text finds nobody, and now it
finds the new user. -/
theorem shows_insert_iff
    (h : EntityCache.Shows DBUser.render (w.userByEmailAddress siteID) w.byEmailAddress) :
    EntityCache.Shows DBUser.render (Users.userByEmailAddress DBUser.toUserRow
        (w.users ++ [Users.newRow siteID w.users w.admins n]) siteID) w.byEmailAddress ↔
      ∀ t, textEq (varchar 128 n.emailAddress) (varchar 128 t) = true →
        w.byEmailAddress t ≠ some .notInDB := by
  rw [h.write_iff]
  constructor
  · intro hk t ht hv
    have hnone : w.userByEmailAddress siteID t = none := by
      simpa [Entry.seen] using (h t _ hv).symm
    have := hk t (by simp [hv])
    rw [userByEmailAddress_insert, if_pos ht, hnone] at this
    cases this
  · intro hn t ht
    rw [userByEmailAddress_insert]
    rcases hu : w.userByEmailAddress siteID t with _ | u
    · rw [if_neg fun hm => ?_]
      · rfl
      · obtain ⟨v, hv⟩ := Option.ne_none_iff_exists'.1 ht
        have hseen := h t v hv
        rw [hu] at hseen
        rcases v with e | _
        · cases hseen
        · exact hn t hm hv
    · rfl

theorem createUser_eq (hx : ¬ Users.hasExternalID siteID w.users n.externalID = true) :
    (w.createUser siteID n).1 =
      { w with
        users := w.users ++ [Users.newRow siteID w.users w.admins n]
        byID := put w.byID (Users.newRow siteID w.users w.admins n).id
          (.entity (Users.newRow siteID w.users w.admins n)) } := by
  unfold createUser Users.spUserCreate
  rw [if_neg hx]
  rfl

theorem createUser_of_hasExternalID
    (hx : Users.hasExternalID siteID w.users n.externalID = true) :
    (w.createUser siteID n).1 = w := by
  unfold createUser Users.spUserCreate
  rw [if_pos hx]

theorem createUser_shows_iff (h : w.Shows siteID) (n : NewUser) :
    (w.createUser siteID n).1.Shows siteID ↔
      Users.hasExternalID siteID w.users n.externalID = true ∨
        ∀ t, textEq (varchar 128 n.emailAddress) (varchar 128 t) = true →
          w.byEmailAddress t ≠ some .notInDB := by
  by_cases hx : Users.hasExternalID siteID w.users n.externalID = true
  · rw [createUser_of_hasExternalID hx]
    exact iff_of_true h (.inl hx)
  · rw [or_iff_right hx, createUser_eq hx, ← shows_insert_iff h.byEmailAddress]
    refine ⟨fun h' => h'.byEmailAddress, fun h' => ⟨h.byID.write_put ?_ fun k hk => ?_, h'⟩⟩
    · show _ = (Users.userOf DBUser.toUserRow (w.users ++ [Users.newRow siteID w.users w.admins n])
        siteID _).map DBUser.render
      rw [userOf_insert, if_pos rfl]
      rfl
    · show (Users.userOf DBUser.toUserRow (w.users ++ [Users.newRow siteID w.users w.admins n])
        siteID k).map DBUser.render = _
      rw [userOf_insert, if_neg hk]

theorem Inv.createUser (hI : w.Inv) (siteID : ℕ) (n : NewUser) : (w.createUser siteID n).1.Inv := by
  by_cases hx : Users.hasExternalID siteID w.users n.externalID = true
  · rw [createUser_of_hasExternalID hx]
    exact hI
  · rw [createUser_eq hx]
    exact ⟨(hI.insert siteID n).keys, (hI.insert siteID n).identity⟩

end Creation

section Update

variable {p : UserUpdate} {u : DBUser}

def written (siteID : ℕ) (w : UserWorld) (p : UserUpdate) (u : DBUser) : DBUser :=
  if eqNull (some u.id) (Users.updateID siteID w.users p) then u.updated p else u

theorem written_id (v : DBUser) : (w.written siteID p v).id = v.id := by
  unfold written
  split_ifs <;> rfl

theorem written_siteID (v : DBUser) : (w.written siteID p v).siteID = v.siteID := by
  unfold written
  split_ifs <;> rfl

theorem written_emailAddress (hp : p.emailAddress = none) (v : DBUser) :
    (w.written siteID p v).emailAddress = v.emailAddress := by
  unfold written DBUser.updated
  split_ifs <;> simp [hp]

theorem target_some (hu : w.target siteID p = some u) :
    u ∈ w.users ∧ Users.updateID siteID w.users p = some u.id := by
  have hid := find?_some hu
  obtain ⟨k, hk, hk'⟩ := eqNull_iff.1 hid
  obtain rfl := Option.some.inj hk
  exact ⟨mem_of_find?_eq_some hu, hk'⟩

theorem target_of_id (hI : w.Inv) (hid : Users.updateID siteID w.users p = some u.id)
    (hu : u ∈ w.users) : w.target siteID p = some u := by
  unfold target
  rw [hid]
  exact hI.identity.find?_eq hu (by simp) fun b _ hb => by simpa using hb

theorem written_of_ne (hu : w.target siteID p = some u) {v : DBUser} (hv : v.id ≠ u.id) :
    w.written siteID p v = v := by
  unfold written
  rw [(target_some hu).2, eqNull_some, if_neg (by simpa using hv)]

theorem written_target (hu : w.target siteID p = some u) : w.written siteID p u = u.updated p := by
  unfold written
  rw [(target_some hu).2, eqNull_some, if_pos (by simp)]

theorem updateUser_of_none (hu : w.target siteID p = none) : w.updateUser siteID p = (w, none) := by
  have hrows : ∀ v ∈ w.users, ¬ eqNull (some v.id) (Users.updateID siteID w.users p) = true :=
    find?_eq_none.1 hu
  have hmap : (w.users.map fun u =>
      if eqNull (some u.id) (Users.updateID siteID w.users p) then u.updated p else u) =
        w.users := by
    rw [map_congr_left fun v hv => if_neg (hrows v hv), map_id']
  unfold updateUser Users.spUserUpdate
  simp only [hmap]
  rw [show w.users.find? _ = none from hu]

theorem updateUser_eq (hu : w.target siteID p = some u) : w.updateUser siteID p =
    ({ w with users := w.users.map (w.written siteID p) }, some (u.updated p)) := by
  have hfind : (w.users.map (w.written siteID p)).find?
      (fun v => eqNull (some v.id) (Users.updateID siteID w.users p)) = some (u.updated p) := by
    rw [find?_map]
    have : (fun v : DBUser => eqNull (some v.id) (Users.updateID siteID w.users p)) ∘
        w.written siteID p = fun v => eqNull (some v.id) (Users.updateID siteID w.users p) := by
      funext v
      simp only [Function.comp_apply, written_id]
    rw [this, show w.users.find? _ = some u from hu, Option.map_some, written_target hu]
  unfold updateUser Users.spUserUpdate
  exact Prod.ext rfl hfind

theorem userOf_update (k : ℤ) :
    Users.userOf DBUser.toUserRow (w.users.map (w.written siteID p)) siteID k =
      (w.userOf siteID k).map (w.written siteID p) := by
  unfold userOf Users.userOf
  rw [find?_map]
  congr 1
  refine congrArg (List.find? · w.users) (funext fun v => ?_)
  simp only [Function.comp_apply, written_id, written_siteID]

theorem userByEmailAddress_update (hp : p.emailAddress = none) (t : Text) :
    Users.userByEmailAddress DBUser.toUserRow (w.users.map (w.written siteID p)) siteID t =
      (w.userByEmailAddress siteID t).map (w.written siteID p) := by
  unfold userByEmailAddress Users.userByEmailAddress
  rw [find?_map]
  congr 1
  refine congrArg (List.find? · w.users) (funext fun v => ?_)
  simp only [Function.comp_apply, Users.hasEmailAddress, written_emailAddress hp, written_siteID]

theorem Inv.update (hI : w.Inv) (hp : p.emailAddress = none) :
    ({ w with users := w.users.map (w.written siteID p) } : UserWorld).Inv := by
  have hid : Sql.Unique (fun u : DBUser => u.id) (w.users.map (w.written siteID p)) :=
    hI.identity.map written_id
  refine ⟨⟨hid.of_key fun a b h => (Prod.mk.inj h).2, fun u hu => ?_, fun u hu a ha => ?_⟩, hid⟩
  · obtain ⟨v, hv, rfl⟩ := mem_map.1 hu
    exact (written_id v).symm ▸ hI.keys.ids v hv
  · obtain ⟨v, hv, rfl⟩ := mem_map.1 hu
    exact hI.keys.emailAddresses v hv a (written_emailAddress hp v ▸ ha)

theorem userByEmailAddress_mem {t : Text} (h : w.userByEmailAddress siteID t = some u) :
    u ∈ w.users :=
  (Users.userByEmailAddress_some h).1

theorem shows_update_iff (hI : w.Inv)
    (h : EntityCache.Shows DBUser.render (w.userByEmailAddress siteID) w.byEmailAddress)
    (hp : p.emailAddress = none) (hu : w.target siteID p = some u) :
    EntityCache.Shows DBUser.render (Users.userByEmailAddress DBUser.toUserRow
        (w.users.map (w.written siteID p)) siteID) w.byEmailAddress ↔ w.Unnoticed siteID p u := by
  rw [h.write_iff]
  constructor
  · intro hk
    by_cases hl : w.Unlisted siteID u
    · exact .inr hl
    · simp only [Unlisted, not_forall, not_not] at hl
      obtain ⟨t, ht, htu⟩ := hl
      have := hk t ht
      rw [userByEmailAddress_update hp, htu, Option.map_some, written_target hu] at this
      exact .inl (Option.some.inj this)
  · intro hn t ht
    rw [userByEmailAddress_update hp]
    rcases htv : w.userByEmailAddress siteID t with _ | v
    · rfl
    by_cases hv : v.id = u.id
    · obtain rfl := hI.identity.eq (userByEmailAddress_mem htv) (target_some hu).1 hv
      rcases hn with hn | hn
      · rw [Option.map_some, written_target hu, Option.map_some, hn, Option.map_some]
      · exact absurd htv (hn t ht)
    · rw [Option.map_some, written_of_ne hu hv]

theorem userOf_eq (hI : w.Inv) (hu : u ∈ w.users) (hs : u.siteID = siteID) :
    w.userOf siteID u.id = some u := by
  subst hs
  exact hI.keys.userOf_eq hu

theorem userOf_mem {k : ℤ} (h : w.userOf siteID k = some u) :
    u ∈ w.users ∧ u.siteID = siteID ∧ u.id = k :=
  Users.userOf_some h

theorem userOf_update_of_ne (hu : w.target siteID p = some u) {k : ℤ} (hk : k ≠ u.id) :
    Users.userOf DBUser.toUserRow (w.users.map (w.written siteID p)) siteID k =
      w.userOf siteID k := by
  rw [userOf_update]
  rcases hv : w.userOf siteID k with _ | v
  · rfl
  · rw [Option.map_some, written_of_ne hu fun hid => hk ((userOf_mem hv).2.2.symm.trans hid)]

theorem shows_put_iff (hI : w.Inv) (h : EntityCache.Shows DBUser.render (w.userOf siteID) w.byID)
    (hu : w.target siteID p = some u) :
    EntityCache.Shows DBUser.render
        (Users.userOf DBUser.toUserRow (w.users.map (w.written siteID p)) siteID)
        (put w.byID u.id (.entity (u.updated p))) ↔ u.siteID = siteID := by
  constructor
  · intro h'
    have hk := h' u.id _ (put_self ..)
    rw [userOf_update] at hk
    rcases hv : w.userOf siteID u.id with _ | v
    · rw [hv] at hk
      cases hk
    · obtain ⟨hmem, hs, hid⟩ := userOf_mem hv
      exact hI.identity.eq hmem (target_some hu).1 hid ▸ hs
  · intro hs
    refine h.write_put ?_ fun k hk => ?_
    · rw [userOf_update, userOf_eq hI (target_some hu).1 hs, Option.map_some, written_target hu]
      rfl
    · rw [userOf_update_of_ne hu hk]

def updateSet (siteID : ℕ) (w : UserWorld) (p : UserUpdate) : UserWorld :=
  ((w.updateUser siteID p).1.userSet siteID (w.updateUser siteID p).2).1

theorem updateSet_of_none (hu : w.target siteID p = none) : w.updateSet siteID p = w := by
  unfold updateSet
  rw [updateUser_of_none hu]
  rfl

theorem updateSet_eq (hu : w.target siteID p = some u) : w.updateSet siteID p =
    { w with
      users := w.users.map (w.written siteID p)
      byID := put w.byID u.id (.entity (u.updated p)) } := by
  unfold updateSet
  rw [updateUser_eq hu]
  rfl

theorem updateSet_shows_iff (hI : w.Inv) (h : w.Shows siteID) (hp : p.emailAddress = none) :
    (w.updateSet siteID p).Shows siteID ↔
      ∀ u, w.target siteID p = some u → u.siteID = siteID ∧ w.Unnoticed siteID p u := by
  rcases hu : w.target siteID p with _ | u
  · rw [updateSet_of_none hu]
    exact iff_of_true h (by simp)
  · simp only [Option.some.injEq, forall_eq']
    rw [updateSet_eq hu, ← shows_put_iff hI h.byID hu, ← shows_update_iff hI h.byEmailAddress hp hu]
    exact ⟨fun h' => ⟨h'.byID, h'.byEmailAddress⟩, fun h' => ⟨h'.1, h'.2⟩⟩

theorem Inv.updateSet (hI : w.Inv) (hp : p.emailAddress = none) : (w.updateSet siteID p).Inv := by
  rcases hu : w.target siteID p with _ | u
  · rw [updateSet_of_none hu]
    exact hI
  · rw [updateSet_eq hu]
    exact ⟨(hI.update hp).keys, (hI.update hp).identity⟩

end Update

section Requests

variable {p : UserUpdate} {callerID : ℤ} {u : DBUser}

theorem target_iff (hI : w.Inv) {k : ℤ} (hp : p.userID = some k) :
    w.target siteID p = some u ↔ u ∈ w.users ∧ u.id = k := by
  have hid : Users.updateID siteID w.users p = some k := by
    rw [Users.updateID, hp, Option.some_or]
  constructor
  · intro hu
    obtain ⟨hmem, hid'⟩ := target_some hu
    exact ⟨hmem, Option.some.inj (hid'.symm.trans hid)⟩
  · rintro ⟨hmem, rfl⟩
    exact target_of_id hI hid hmem

theorem walletUpdate_ok {cp : CodePage} {cards : List WalletCard}
    (h : walletUpdate cp cards callerID = .ok p) :
    p.userID = some callerID ∧ p.emailAddress = none := by
  unfold walletUpdate WalletCard.update at h
  repeat' split at h
  all_goals try cases h
  exact ⟨rfl, rfl⟩

theorem updateWallet_shows_iff (hI : w.Inv) (h : w.Shows siteID) (cards : List WalletCard) :
    (w.updateWallet siteID callerID cards).1.Shows siteID ↔
      w.Keeps siteID (callerID, .updateWallet cards) := by
  unfold updateWallet
  simp only [Keeps]
  rcases hc : walletUpdate w.codePage cards callerID with e | p
  · exact iff_of_true h (by simp)
  · obtain ⟨hid, hp⟩ := walletUpdate_ok hc
    refine (updateSet_shows_iff hI h hp).trans ?_
    simp only [Except.ok.injEq, forall_eq', target_iff hI hid, and_imp]

theorem target_login (hI : w.Inv) {l : Login}
    (hu : w.target siteID l.update = some u) : u.siteID = siteID := by
  obtain ⟨hmem, hid⟩ := target_some hu
  rw [Users.updateID, show l.update.userID = none from rfl, Option.none_or,
    Option.map_eq_some_iff] at hid
  obtain ⟨v, hv, hvid⟩ := hid
  obtain ⟨hmem', hp⟩ := selectLast_mem hv
  obtain rfl := hI.identity.eq hmem' hmem hvid
  simp only [Bool.and_eq_true, decide_eq_true_eq] at hp
  exact hp.1

theorem unlisted_refreshed (t : Text) (u : DBUser) :
    ({ w with byEmailAddress :=
        refreshed (w.userByEmailAddress siteID) true [t] w.byEmailAddress } :
      UserWorld).Unlisted siteID u ↔
      w.Unlisted siteID u ∧ w.userByEmailAddress siteID t ≠ some u := by
  unfold Unlisted
  simp only [refreshed_true]
  constructor
  · intro h
    refine ⟨fun t' ht' => ?_, h t (by simp)⟩
    refine h t' ?_
    by_cases htt : t' = t
    · simp [htt]
    · rwa [put_of_ne htt]
  · rintro ⟨h, ht⟩ t' ht'
    by_cases htt : t' = t
    · exact htt ▸ ht
    · rw [put_of_ne htt] at ht'
      exact h t' ht'

theorem authenticate_shows_iff (hI : w.Inv) (h : w.Shows siteID) (callerID : ℤ) (t : Text)
    (l : Login) :
    (w.authenticate siteID t (.ok l)).1.Shows siteID ↔
      w.Keeps siteID (callerID, .authenticate t (.ok l)) := by
  have hI' : (w.lookupByEmailAddress siteID true t).1.Inv := hI.lookupByEmailAddress true t
  have h' := h.lookupByEmailAddress hI true t
  unfold authenticate Keeps
  rw [lookupByEmailAddress_eq hI] at hI' h' ⊢
  dsimp only at hI' h' ⊢
  rw [show answer (w.userByEmailAddress siteID) true w.byEmailAddress t =
    w.userByEmailAddress siteID t from if_pos (.inl rfl)]
  rcases hv : w.userByEmailAddress siteID t with _ | v
  · dsimp only
    rcases hsf : l.storefrontUser with e | sf
    · exact iff_of_true h' (by simp [Except.isOk, Except.toBool])
    · dsimp only
      rw [createUser_shows_iff h']
      simp only [Except.isOk, Except.toBool, forall_const]
      refine or_iff_left fun hn => hn t (textEq_self _) ?_
      simp only [refreshed_true, put_self, hv]
      rfl
  · dsimp only
    refine (updateSet_shows_iff hI' h' rfl).trans (forall₂_congr fun u hu => ?_)
    rw [and_iff_right (target_login hI' hu), Unnoticed, unlisted_refreshed, hv, Ne,
      Option.some.injEq]

theorem Shows.answer_some (h : w.Shows siteID) {k : ℤ} {v : DBUser}
    (hv : answer (w.userOf siteID) false w.byID k = some v) :
    ∃ u, w.userOf siteID k = some u ∧ u.render = v.render := by
  have hk := shows_iff.1 h.byID k
  rw [hv, Option.map_some] at hk
  exact Option.map_eq_some_iff.1 hk.symm

theorem Shows.answer_none (h : w.Shows siteID) {k : ℤ}
    (hv : answer (w.userOf siteID) false w.byID k = none) :
    w.userOf siteID k = none := by
  have hk := shows_iff.1 h.byID k
  rw [hv, Option.map_none] at hk
  exact Option.map_eq_none_iff.1 hk.symm

section

variable (hI : w.Inv)
include hI

theorem updateLookup_shows_iff (h : w.Shows siteID) (hp : p.emailAddress = none)
    (hu : w.target siteID p = some u) :
    ((w.updateUser siteID p).1.lookup siteID true u.id).1.Shows siteID ↔
      w.Unnoticed siteID p u := by
  rw [updateUser_eq hu, lookup_eq (hI.update hp), refreshed_true,
    ← shows_update_iff hI h.byEmailAddress hp hu]
  refine ⟨fun h' => h'.byEmailAddress, fun h' => ⟨?_, h'⟩⟩
  refine h.byID.write_put (seen_entryOf _) fun k hk => ?_
  exact congrArg _ (userOf_update_of_ne hu hk)

theorem userUpdate_shows_iff (h : w.Shows siteID) (user : NamesUpdate)
    (storefront : Except Exn Unit) :
    (w.userUpdate siteID callerID user storefront).1.Shows siteID ↔
      w.Keeps siteID (callerID, .update user storefront) := by
  have h' := h.lookup hI false callerID
  have hI' : (w.lookup siteID false callerID).1.Inv := hI.lookup false callerID
  unfold userUpdate
  split_ifs with hc
  · refine iff_of_true h ?_
    rcases storefront with e | _
    · trivial
    · exact fun hc' => absurd hc' hc
  · obtain rfl := not_not.1 hc
    rw [lookup_eq hI] at h' hI' ⊢
    dsimp only at h' hI' ⊢
    rcases hv : answer (w.userOf siteID) false w.byID user.userID with _ | v
    · refine iff_of_true h' ?_
      rcases storefront with e | _
      · trivial
      · intro _ u hu
        rw [h.answer_none hv] at hu
        cases hu
    · rcases storefront with e | _
      · exact iff_of_true h' trivial
      · obtain ⟨u, hu, -⟩ := h.answer_some hv
        obtain ⟨hmem, -, hid⟩ := userOf_mem hu
        have hstep := updateLookup_shows_iff hI' h' rfl ((target_iff hI' rfl).2 ⟨hmem, hid⟩ :
          target siteID _ user.update = some u)
        rw [hid] at hstep
        simp only [Keeps, hu, Option.some.injEq, forall_eq', forall_const]
        exact hstep

theorem not_shows_declined (h : w.Shows siteID)
    (hu : w.userOf siteID callerID = some u) (hv : u.hasValidPaymentMethod = true)
    (hs : w.byID callerID ≠ none) :
    ¬ (w.updateUser siteID (declinedUpdate callerID)).1.Shows siteID := by
  obtain ⟨hmem, -, hid⟩ := userOf_mem hu
  have htarget : w.target siteID (declinedUpdate callerID) = some u :=
    (target_iff hI rfl).2 ⟨hmem, hid⟩
  rw [updateUser_eq htarget]
  intro h'
  have hk := h.byID.write_iff.1 h'.byID callerID hs
  have hrow : ({ w with users := w.users.map (w.written siteID (declinedUpdate callerID)) } :
      UserWorld).userOf siteID callerID = some (u.updated (declinedUpdate callerID)) := by
    refine (userOf_update callerID).trans ?_
    rw [hu, Option.map_some, written_target htarget]
  rw [hrow, hu, Option.map_some, Option.map_some, Option.some.injEq] at hk
  have := congrArg ClientUser.hasValidPaymentMethod hk
  rw [show (u.render).hasValidPaymentMethod = true from hv] at this
  cases this

theorem checkout_shows_iff (h : w.Shows siteID) (declined : Bool) :
    ((w.context siteID callerID).1.checkout siteID callerID (w.context siteID callerID).2
        declined).Shows siteID ↔ w.Keeps siteID (callerID, .checkout declined) := by
  unfold context
  split_ifs with hc
  · have h' := h.lookup hI false callerID
    have hI' : (w.lookup siteID false callerID).1.Inv := hI.lookup false callerID
    rw [lookup_eq hI] at h' hI' ⊢
    dsimp only at h' hI' ⊢
    rcases hv : answer (w.userOf siteID) false w.byID callerID with _ | v
    · refine iff_of_true h' ?_
      rcases declined with _ | _
      · trivial
      · intro _ u hu
        rw [h.answer_none hv] at hu
        cases hu
    · obtain ⟨u, hu, hr⟩ := h.answer_some hv
      have hpay : u.hasValidPaymentMethod = v.hasValidPaymentMethod :=
        congrArg ClientUser.hasValidPaymentMethod hr
      rcases declined with _ | _
      · simp only [checkout, Bool.not_false, Bool.or_true, if_true]
        exact iff_of_true h' trivial
      · simp only [Keeps, hu, Option.some.injEq, forall_eq', hpay, hc.1, ne_eq, not_false_eq_true,
          forall_const]
        rcases hval : v.hasValidPaymentMethod
        · simp only [checkout, hval, Bool.not_false, Bool.or_true, Bool.true_or, if_true]
          exact iff_of_true h' trivial
        · simp only [checkout, hval, hc.2, decide_false, Bool.not_true, Bool.or_false,
            Bool.false_eq_true, if_false, Bool.true_eq_false, iff_false]
          exact not_shows_declined hI' h' hu (hpay.trans hval) refreshed_ne_none
  · refine iff_of_true h ?_
    rcases declined with _ | _
    · trivial
    · intro hs u hu
      obtain ⟨hmem, -, hid⟩ := userOf_mem hu
      have := hI.keys.ids u hmem
      have : callerID = 0 := by
        by_contra hne
        exact hc ⟨hs, hne⟩
      omega

theorem context_spec (h : w.Shows siteID) (callerID : ℤ) :
    ∃ s, (w.context siteID callerID).1 = { w with byID := s } ∧
      ({ w with byID := s } : UserWorld).Shows siteID := by
  unfold context
  split_ifs
  · have h' := h.lookup hI false callerID
    rw [lookup_eq hI] at h' ⊢
    exact ⟨_, rfl, h'⟩
  · exact ⟨w.byID, rfl, h⟩

theorem handle_shows_iff (h : w.Shows siteID) (r : ℤ × UserRequest) :
    (w.handle siteID r).Shows siteID ↔ w.Keeps siteID r := by
  obtain ⟨callerID, r⟩ := r
  obtain ⟨s, hc, h'⟩ := context_spec hI h callerID
  have hI' : ({ w with byID := s } : UserWorld).Inv := ⟨hI.keys, hI.identity⟩
  cases r with
  | create user =>
    simp only [handle, hc]
    rcases user with e | ⟨sf, newGuid, now⟩
    · exact iff_of_true h' trivial
    · exact createUser_shows_iff h' _
  | authenticate t login =>
    simp only [handle, hc]
    rcases login with e | l
    · exact iff_of_true h' trivial
    · exact authenticate_shows_iff hI' h' callerID t l
  | update user storefront =>
    simp only [handle, hc]
    exact userUpdate_shows_iff hI' h' user storefront
  | updateWallet cards =>
    simp only [handle, hc]
    exact updateWallet_shows_iff hI' h' cards
  | checkout declined => exact checkout_shows_iff hI h declined
  | get k =>
    simp only [handle, hc]
    exact iff_of_true (h'.lookup hI' false k) trivial
  | getByEmailAddress t =>
    simp only [handle, hc]
    exact iff_of_true (h'.lookupByEmailAddress hI' false t) trivial

theorem Inv.updateUser (hp : p.emailAddress = none) :
    (w.updateUser siteID p).1.Inv := by
  rcases hu : w.target siteID p with _ | u
  · rw [updateUser_of_none hu]
    exact hI
  · rw [updateUser_eq hu]
    exact hI.update hp

theorem Inv.context (callerID : ℤ) : (w.context siteID callerID).1.Inv := by
  unfold UserWorld.context
  split_ifs
  · exact hI.lookup false callerID
  · exact hI

theorem Inv.authenticate (t : Text) (login : Except Exn Login) :
    (w.authenticate siteID t login).1.Inv := by
  have hI' : (w.lookupByEmailAddress siteID true t).1.Inv := hI.lookupByEmailAddress true t
  unfold UserWorld.authenticate
  rcases login with e | l
  · exact hI
  dsimp only
  split
  · split
    · exact hI'
    · exact hI'.createUser siteID _
  · exact hI'.updateSet rfl

theorem Inv.userUpdate (user : NamesUpdate) (storefront : Except Exn Unit) :
    (w.userUpdate siteID callerID user storefront).1.Inv := by
  have hI' : (w.lookup siteID false callerID).1.Inv := hI.lookup false callerID
  unfold UserWorld.userUpdate
  split_ifs
  · exact hI
  dsimp only
  split
  · exact hI'
  · exact hI'
  · exact (hI'.updateUser rfl).lookup true callerID

theorem Inv.handle (r : ℤ × UserRequest) : (w.handle siteID r).Inv := by
  obtain ⟨callerID, r⟩ := r
  have hI' : (w.context siteID callerID).1.Inv := hI.context callerID
  unfold UserWorld.handle
  cases r with
  | create user =>
    rcases user with e | ⟨sf, newGuid, now⟩
    · exact hI'
    · exact hI'.createUser siteID _
  | authenticate t login => exact hI'.authenticate t login
  | update user storefront => exact hI'.userUpdate user storefront
  | updateWallet cards =>
    dsimp only [UserWorld.updateWallet]
    split
    · exact hI'
    · rename_i hc
      exact hI'.updateSet (walletUpdate_ok hc).2
  | checkout declined =>
    dsimp only [UserWorld.checkout]
    split
    · exact hI'
    · split_ifs
      · exact hI'
      · exact hI'.updateUser rfl
  | get k => exact hI'.lookup false k
  | getByEmailAddress t => exact hI'.lookupByEmailAddress false t

end

end Requests

/-- Over any run that starts with right answers, the answers are right after each request exactly
if each request meets `Keeps` in the state it comes to. -/
theorem answers_iff (hI : w.Inv) (siteID : ℕ) (h : w.Answers siteID)
    (rs : List (ℤ × UserRequest)) :
    (∀ n, (run (handle siteID) w (rs.take n)).Answers siteID) ↔
      RunOk (handle siteID) (Keeps siteID) w rs := by
  refine (runOk_iff (I := Inv) (P := Answers siteID) (fun s r hs => hs.handle r)
    (fun s r hs ha => ?_) hI h).symm
  rw [answers_iff_shows (hs.handle r)]
  exact handle_shows_iff hs ((answers_iff_shows hs).1 ha) r

def noUsers : UserWorld where
  users := []
  byID := fun _ => none
  byEmailAddress := fun _ => none

def onePayer : UserWorld where
  users := [{
    siteID := 1
    id := 7
    userGuid := signedIn.visitGuid
    emailAddress := some "a@x".toList
    hasValidPaymentMethod := true }]
  byID := fun _ => none
  byEmailAddress := fun _ => none

def storefrontUser : StorefrontUser where
  userId := 700
  userName := "a@x".toList

def newcomer : UserRequest := .create (.ok (storefrontUser, signedIn.visitGuid, 0))

def firstLogin : UserRequest := .authenticate "a@x".toList (.ok
  { externalID := 700, storefrontUser := .ok storefrontUser, newGuid := signedIn.visitGuid })

theorem answers_of_empty (hI : w.Inv) (hid : ∀ k, w.byID k = none)
    (hemail : ∀ t, w.byEmailAddress t = none) : w.Answers siteID := by
  refine (answers_iff_shows hI).2 ⟨fun k v hv => ?_, fun t v hv => ?_⟩
  · rw [hid k] at hv
    cases hv
  · rw [hemail t] at hv
    cases hv

theorem noUsers_inv : noUsers.Inv := ⟨⟨by decide, by decide, by decide⟩, by decide⟩

theorem onePayer_inv : onePayer.Inv := ⟨⟨by decide, by decide, by decide⟩, by decide⟩

def renamed : List (ℤ × UserRequest) :=
  [(0, newcomer), (1, .update { userID := 1, firstName := some "A".toList } (.ok ())),
    (1, .getByEmailAddress "A@x".toList)]

theorem newcomer_answers :
    noUsers.Inv ∧ ∀ n, (run (handle 1) noUsers (renamed.take n)).Answers 1 := by
  refine ⟨noUsers_inv, (answers_iff noUsers_inv 1 (answers_of_empty noUsers_inv (fun _ => rfl)
    fun _ => rfl) renamed).2 ⟨.inr fun t _ h => ?_, fun _ u _ => .inr fun t ht => ?_, trivial,
      trivial⟩⟩
  · cases h
  · exact absurd rfl ht

/-- After the login that creates a user their email address is answered as unknown, and after a
declined checkout the card is still shown as valid. -/
theorem stale_answers :
    let w := noUsers.handle 1 (0, firstLogin)
    let w' := onePayer.handle 1 (7, .checkout true)
    noUsers.Inv ∧ onePayer.Inv ∧ noUsers.Answers 1 ∧ onePayer.Answers 1 ∧
    ((w.userByEmailAddress 1 "a@x".toList).map (·.id) = some 1 ∧
      (w.userGetByEmailAddress 1 "a@x".toList).2 = .error .nullReference) ∧
    (w'.userOf 1 7).map (·.hasValidPaymentMethod) = some false ∧
    (w'.userGet 1 7).2.map (·.hasValidPaymentMethod) = .ok true ∧
    ¬ w.Answers 1 ∧ ¬ w'.Answers 1 := by
  intro w w'
  have hknown : (w.userByEmailAddress 1 "a@x".toList).map (·.id) = some 1 := by decide
  have hget : (w.userGetByEmailAddress 1 "a@x".toList).2 = .error .nullReference := by decide
  have hrow : (w'.userOf 1 7).map (·.hasValidPaymentMethod) = some false := by decide
  have hshown : (w'.userGet 1 7).2.map (·.hasValidPaymentMethod) = .ok true := by decide
  refine ⟨noUsers_inv, onePayer_inv, answers_of_empty noUsers_inv (fun _ => rfl) fun _ => rfl,
    answers_of_empty onePayer_inv (fun _ => rfl) fun _ => rfl, ⟨hknown, hget⟩, hrow, hshown,
    fun h => ?_, fun h => ?_⟩
  · rw [h.byEmailAddress] at hget
    rcases hu : w.userByEmailAddress 1 "a@x".toList with _ | u
    · rw [hu] at hknown
      cases hknown
    · rw [hu] at hget
      cases hget
  · rw [h.byID] at hshown
    rcases hu : w'.userOf 1 7 with _ | u
    · rw [hu] at hrow
      cases hrow
    · rw [hu, Option.map_some, Option.some.injEq] at hrow
      rw [hu] at hshown
      have hpay : u.hasValidPaymentMethod = true := Except.ok.inj hshown
      rw [hrow] at hpay
      cases hpay

end UserWorld

end AciX
