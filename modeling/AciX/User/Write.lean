import AciX.Cart.Checkout
import AciX.Sql.CodePage
import AciX.User.Cache
import AciX.User.SignIn

/-!
# Writing users

Five requests write to `Users`: a creation, a login, an update of the names, an update from the
wallet, and a checkout that is declined. A row is modelled with the columns that `User.Render`
shows; `UserRow` is the part of it that the rest of the development reads (`spUserCreate_row`,
`spUserUpdate_login_row`, `spUserUpdate_declined_row`).
-/

namespace AciX

open List Sql

structure DBUser extends UserRow where
  firstName : Option Text := none
  middleName : Option Text := none
  lastName : Option Text := none
  hasAcceptedUserAgreement : Bool := false
  cardLast4 : Option Text := none
  isBackofficeWriter : Bool := false
  dateCreated : ℤ := 0

structure ClientUser where
  siteID : ℕ
  userID : ℤ
  userGuid : Guid
  firstName : Option Text
  middleName : Option Text
  lastName : Option Text
  email : Option Text
  hasAcceptedUserAgreement : Bool
  hasValidPaymentMethod : Bool
  cardNumberLast4 : Option Text
  isBackofficeReader : Bool
  isBackofficeWriter : Bool
  dateCreated : ℤ
  deriving DecidableEq

def DBUser.render (u : DBUser) : ClientUser where
  siteID := u.siteID
  userID := u.id
  userGuid := u.userGuid
  firstName := u.firstName
  middleName := u.middleName
  lastName := u.lastName
  email := u.emailAddress
  hasAcceptedUserAgreement := u.hasAcceptedUserAgreement
  hasValidPaymentMethod := u.hasValidPaymentMethod
  cardNumberLast4 := u.cardLast4
  isBackofficeReader := u.isBackofficeReader
  isBackofficeWriter := u.isBackofficeWriter
  dateCreated := u.dateCreated

structure NewUser where
  externalID : ℤ
  emailAddress : Text
  firstName : Option Text := none
  middleName : Option Text := none
  lastName : Option Text := none
  hasAcceptedUserAgreement : Bool := false
  isBackofficeReader : Bool := false
  newGuid : Guid
  now : ℤ := 0

structure UserUpdate where
  externalUserID : Option ℤ := none
  userID : Option ℤ := none
  emailAddress : Option Text := none
  firstName : Option Text := none
  middleName : Option Text := none
  lastName : Option Text := none
  hasAcceptedUserAgreement : Option Bool := none
  hasValidPaymentMethod : Option Bool := none
  cardLast4 : Option Text := none

def DBUser.updated (p : UserUpdate) (u : DBUser) : DBUser :=
  { u with
    emailAddress := (p.emailAddress.map (varchar 128)).or u.emailAddress
    firstName := (p.firstName.map (varchar 30)).or u.firstName
    middleName := (p.middleName.map (varchar 30)).or u.middleName
    lastName := (p.lastName.map (varchar 30)).or u.lastName
    hasAcceptedUserAgreement := p.hasAcceptedUserAgreement.getD u.hasAcceptedUserAgreement
    hasValidPaymentMethod := p.hasValidPaymentMethod.getD u.hasValidPaymentMethod
    cardLast4 := (p.cardLast4.map (char 4)).or u.cardLast4
    externalID := p.externalUserID.or u.externalID }

namespace Users

variable (siteID : ℕ) (users : List DBUser)

def hasExternalID (externalID : ℤ) : Bool :=
  users.any fun u => u.siteID = siteID && eqNull u.externalID (some externalID)

def newRow (admins : List Text) (n : NewUser) : DBUser where
  siteID := siteID
  id := 1 + maxFrom 0 (users.map (·.id))
  userGuid := n.newGuid
  externalID := some n.externalID
  emailAddress := some (varchar 128 n.emailAddress)
  isBackofficeReader := n.isBackofficeReader ||
    admins.any fun a => textEq a (varchar 128 n.emailAddress)
  firstName := n.firstName.map (varchar 30)
  middleName := n.middleName.map (varchar 30)
  lastName := n.lastName.map (varchar 30)
  hasAcceptedUserAgreement := n.hasAcceptedUserAgreement
  dateCreated := n.now

def spUserCreate (admins : List Text) (n : NewUser) : Except Exn (List DBUser × DBUser) :=
  if hasExternalID siteID users n.externalID then .error .sql
  else .ok (users ++ [newRow siteID users admins n], newRow siteID users admins n)

/-- The id `spUserUpdate` goes by: the one it is given or that of the user with the external id. -/
def updateID (p : UserUpdate) : Option ℤ :=
  p.userID.or ((selectLast (fun u => u.siteID = siteID &&
    eqNull u.externalID p.externalUserID) users).map (·.id))

def spUserUpdate (p : UserUpdate) : List DBUser × Option DBUser :=
  let userID := updateID siteID users p
  let users := users.map fun u => if eqNull (some u.id) userID then u.updated p else u
  (users, users.find? fun u => eqNull (some u.id) userID)

section Rows

variable {siteID users} {db : Db}

section

variable (hdb : db.users = users.map DBUser.toUserRow)
include hdb

theorem spUserCreate_row {ctx : CallContext}
    {s : SignIn} {admins : List Text} {n : NewUser} (he : s.emailAddress = n.emailAddress)
    (hg : s.newGuid = n.newGuid)
    (hr : s.isBackofficeReader = (newRow ctx.siteID users admins n).isBackofficeReader)
    (iwsUserToken storefrontUserToken : Option Text) :
    (db.spUserCreate ctx s n.externalID iwsUserToken storefrontUserToken).map (·.1.users) =
      (spUserCreate ctx.siteID users admins n).map fun r => r.1.map DBUser.toUserRow := by
  have hany : (db.users.any fun u => u.siteID = ctx.siteID &&
      eqNull u.externalID (some n.externalID)) = hasExternalID ctx.siteID users n.externalID := by
    rw [hdb, any_map]
    rfl
  unfold Db.spUserCreate spUserCreate
  rw [hany]
  split_ifs
  · rfl
  · simp only [Except.map, Db.spVisitUpdateIwsUserToken, hdb, he, hg, hr, map_append, map_map]
    rfl

theorem spUserUpdate_login_row (ctx : CallContext)
    (s : SignIn) (x : ℤ) (iwsUserToken storefrontUserToken : Option Text) :
    (db.spUserUpdate ctx s x iwsUserToken storefrontUserToken).1.users =
      (spUserUpdate ctx.siteID users
        { externalUserID := some x, hasValidPaymentMethod := some s.hasValidPaymentMethod }).1.map
        DBUser.toUserRow := by
  have hsel : (selectLast (fun u => u.siteID = ctx.siteID &&
      eqNull u.externalID (some x)) db.users).map (·.id) = updateID ctx.siteID users
        { externalUserID := some x, hasValidPaymentMethod := some s.hasValidPaymentMethod } := by
    simp only [updateID, Option.none_or, selectLast, hdb, filter_map, getLast?_map, Option.map_map]
    rfl
  have hwrite : (db.spUserUpdate ctx s x iwsUserToken storefrontUserToken).1.users =
      db.users.map fun u => if eqNull (some u.id) (updateID ctx.siteID users
        { externalUserID := some x, hasValidPaymentMethod := some s.hasValidPaymentMethod }) then
          { u with hasValidPaymentMethod := s.hasValidPaymentMethod, externalID := some x }
        else u := by
    unfold Db.spUserUpdate
    rw [hsel]
    dsimp only
    split_ifs <;> rfl
  rw [hwrite, hdb]
  simp only [spUserUpdate, map_map]
  refine map_congr_left fun u _ => ?_
  simp only [Function.comp_apply]
  split_ifs <;> rfl

theorem spUserUpdate_declined_row (userID : ℤ) :
    (db.clearPaymentMethod userID).users =
      (spUserUpdate siteID users
        { userID := some userID, hasValidPaymentMethod := some false }).1.map DBUser.toUserRow := by
  simp only [Db.clearPaymentMethod, hdb, spUserUpdate, updateID, Option.some_or, map_map]
  refine map_congr_left fun u _ => ?_
  simp only [Function.comp_apply, eqNull_some, decide_eq_true_eq]
  split_ifs <;> rfl

end

end Rows

end Users

structure StorefrontUser where
  userId : ℤ
  userName : Text
  admin : Bool := false
  firstName : Option Text := none
  middleName : Option Text := none
  lastName : Option Text := none
  userAgreementAccepted : Bool := false

structure Login where
  externalID : ℤ
  cards : Option (List Card) := none
  storefrontUser : Except Exn StorefrontUser
  newGuid : Guid
  now : ℤ := 0

def Login.hasValidPaymentMethod (l : Login) : Bool := (l.cards.getD []).any (·.active ≠ 0)

def Login.update (l : Login) : UserUpdate where
  externalUserID := some l.externalID
  hasValidPaymentMethod := some l.hasValidPaymentMethod

def Login.newUser (l : Login) (emailAddress : Text) (sf : StorefrontUser) : NewUser where
  externalID := l.externalID
  emailAddress := emailAddress
  firstName := sf.firstName
  middleName := sf.middleName
  lastName := sf.lastName
  hasAcceptedUserAgreement := sf.userAgreementAccepted
  isBackofficeReader := sf.admin
  newGuid := l.newGuid
  now := l.now

def StorefrontUser.newUser (sf : StorefrontUser) (newGuid : Guid) (now : ℤ) : NewUser where
  externalID := sf.userId
  emailAddress := sf.userName
  firstName := sf.firstName
  middleName := sf.middleName
  lastName := sf.lastName
  hasAcceptedUserAgreement := sf.userAgreementAccepted
  newGuid := newGuid
  now := now

/-- A card of the wallet; its date is what `DateTime.Parse` makes of it, in ticks from the beginning
of the year 1753. -/
structure WalletCard where
  active : Option Text := none
  cardholderName : Option Text := none
  ccNumLastFour : Option Text := none
  lastModified : Except Exn ℤ := .ok 0

/-- The `DATETIME`s are from 1753 on; the last moments of the year 9999 are rounded up. -/
def inDateTime (t : ℤ) : Bool := 0 ≤ t && t < 3012154 * 864000000000 - 16666

/-- The parameters of `UpdateUserFromCard`; a name without a blank cannot be taken apart. The names
are sent to `VARCHAR` parameters, the date to a `DATETIME` one. -/
def WalletCard.update (cp : CodePage) (card : WalletCard) (userID : ℤ) : Except Exn UserUpdate :=
  match card.cardholderName with
  | none => .error .nullReference
  | some name =>
    if ' ' ∈ name then
      match card.lastModified with
      | .error e => .error e
      | .ok t =>
        if inDateTime t then .ok
          { userID := some userID
            firstName := some (cp.text (name.takeWhile (· ≠ ' ')))
            lastName := some (cp.text ((name.dropWhile (· ≠ ' ')).drop 1))
            cardLast4 := card.ccNumLastFour.map cp.text
            hasValidPaymentMethod := some true }
        else .error .sql
    else .error .indexOutOfRange

def walletUpdate (cp : CodePage) (cards : List WalletCard) (userID : ℤ) :
    Except Exn UserUpdate :=
  match cards.find? (·.active = some "1".toList) with
  | none => .error .nullReference
  | some card => card.update cp userID

structure NamesUpdate where
  userID : ℤ
  firstName : Option Text := none
  middleName : Option Text := none
  lastName : Option Text := none

def NamesUpdate.update (n : NamesUpdate) : UserUpdate where
  userID := some n.userID
  firstName := n.firstName
  middleName := n.middleName
  lastName := n.lastName

def declinedUpdate (userID : ℤ) : UserUpdate where
  userID := some userID
  hasValidPaymentMethod := some false

inductive UserRequest where
  | create (user : Except Exn (StorefrontUser × Guid × ℤ))
  | authenticate (emailAddress : Text) (login : Except Exn Login)
  | update (user : NamesUpdate) (storefront : Except Exn Unit)
  | updateWallet (cards : List WalletCard)
  | checkout (declined : Bool)
  | get (userID : ℤ)
  | getByEmailAddress (emailAddress : Text)

structure UserWorld where
  users : List DBUser
  admins : List Text := []
  byID : Store ℤ DBUser
  byEmailAddress : Store Text DBUser
  codePage : CodePage := asciiPage

namespace UserWorld

section Model

variable (siteID : ℕ) (w : UserWorld)

def lookup (force : Bool) (userID : ℤ) : UserWorld × Option DBUser :=
  let r := (Users.siteUserCache DBUser.toUserRow w.users siteID).get force userID w.byID
  ({ w with byID := r.1 }, r.2)

def lookupByEmailAddress (force : Bool) (emailAddress : Text) : UserWorld × Option DBUser :=
  let r :=
    (Users.siteUserCacheByEmailAddress DBUser.toUserRow w.users siteID).get force emailAddress
    w.byEmailAddress
  ({ w with byEmailAddress := r.1 }, r.2)

def rendered : Option DBUser → Except Exn ClientUser
  | none => .error .nullReference
  | some u => .ok u.render

def userGet (userID : ℤ) : UserWorld × Except Exn ClientUser :=
  let r := w.lookup siteID false userID
  (r.1, rendered r.2)

def userGetByEmailAddress (emailAddress : Text) : UserWorld × Except Exn ClientUser :=
  let r := w.lookupByEmailAddress siteID false emailAddress
  (r.1, rendered r.2)

def userSet : Option DBUser → UserWorld × Except Exn ClientUser
  | none => (w, .error .nullReference)
  | some u =>
    ({ w with byID := (Users.siteUserCache DBUser.toUserRow w.users siteID).set w.byID u },
      .ok u.render)

def createUser (n : NewUser) : UserWorld × Except Exn ClientUser :=
  match Users.spUserCreate siteID w.users w.admins n with
  | .error e => (w, .error e)
  | .ok (users, u) => ({ w with users := users } : UserWorld).userSet siteID (some u)

def updateUser (p : UserUpdate) : UserWorld × Option DBUser :=
  let r := Users.spUserUpdate siteID w.users p
  ({ w with users := r.1 }, r.2)

def userCreate (user : Except Exn (StorefrontUser × Guid × ℤ)) :
    UserWorld × Except Exn ClientUser :=
  match user with
  | .error e => (w, .error e)
  | .ok (sf, newGuid, now) => w.createUser siteID (sf.newUser newGuid now)

/-- `User.Authenticate`. The user is looked up first and written afterwards. -/
def authenticate (emailAddress : Text) (login : Except Exn Login) :
    UserWorld × Except Exn ClientUser :=
  match login with
  | .error e => (w, .error e)
  | .ok l =>
    let r := w.lookupByEmailAddress siteID true emailAddress
    match r.2 with
    | none =>
      match l.storefrontUser with
      | .error e => (r.1, .error e)
      | .ok sf => r.1.createUser siteID (l.newUser emailAddress sf)
    | some _ =>
      let r := r.1.updateUser siteID l.update
      r.1.userSet siteID r.2

def userUpdate (callerID : ℤ) (user : NamesUpdate) (storefront : Except Exn Unit) :
    UserWorld × Except Exn ClientUser :=
  if callerID ≠ user.userID then (w, .error .authorizationRequired)
  else
    let r := w.lookup siteID false callerID
    match r.2, storefront with
    | none, _ => (r.1, .error .nullReference)
    | some _, .error e => (r.1, .error e)
    | some _, .ok _ =>
      let r := (r.1.updateUser siteID user.update).1.lookup siteID true callerID
      (r.1, rendered r.2)

def updateWallet (callerID : ℤ) (cards : List WalletCard) : UserWorld × Except Exn ClientUser :=
  match walletUpdate w.codePage cards callerID with
  | .error e => (w, .error e)
  | .ok p =>
    let r := w.updateUser siteID p
    r.1.userSet siteID r.2

def checkout (callerID : ℤ) (dbUser : Option DBUser) (declined : Bool) : UserWorld :=
  match dbUser with
  | none => w
  | some u =>
    if callerID = 0 || !u.hasValidPaymentMethod || !declined then w
    else (w.updateUser siteID (declinedUpdate callerID)).1

def context (callerID : ℤ) : UserWorld × Option DBUser :=
  if siteID ≠ 0 ∧ callerID ≠ 0 then w.lookup siteID false callerID else (w, none)

def handle (r : ℤ × UserRequest) : UserWorld :=
  let c := w.context siteID r.1
  match r.2 with
  | .create user => (c.1.userCreate siteID user).1
  | .authenticate emailAddress login => (c.1.authenticate siteID emailAddress login).1
  | .update user storefront => (c.1.userUpdate siteID r.1 user storefront).1
  | .updateWallet cards => (c.1.updateWallet siteID r.1 cards).1
  | .checkout declined => c.1.checkout siteID r.1 c.2 declined
  | .get userID => (c.1.userGet siteID userID).1
  | .getByEmailAddress emailAddress => (c.1.userGetByEmailAddress siteID emailAddress).1

end Model

end UserWorld

end AciX
