import AciX.Db

/-!
# What a request carries

The client's carts and orders, the visit and the user the request runs for, and the exceptions a
request may end with. A `string` that may be null is an `Option`, and so is an array.
-/

namespace AciX

inductive Exn where
  | authorizationRequired
  | noPaymentMethod
  | cartEmpty
  | creditCardDeclined
  | orderNotFound
  | orderAlreadyFulfilled
  | reportTypeCodeRequired
  | profileNotFound
  | reportNotFound
  | invalidWhereClause
  | nullReference
  | keyNotFound
  | indexOutOfRange
  | noElements
  | iws (reason : Text)
  | web
  | sql
  deriving DecidableEq

structure OrderItem where
  orderItemID : ℤ := 0
  orderItemExternalID : ℤ := 0
  orderID : ℤ := 0
  productID : ℤ := 0
  productExternalID : ℤ := 0
  productToken : Option Text := none
  offerToken : Option Text := none
  skuID : ℤ := 0
  productName : Option Text := none
  productType : Option Text := none
  productCode : Option Text := none
  skuCode : Option Text := none
  quantity : ℤ := 0
  regularPrice : ℤ := 0
  price : ℤ := 0
  discountAmount : ℤ := 0
  discountDescription : Option Text := none
  recurringPrice : ℤ := 0
  firstName : Option Text := none
  middleInitial : Option Text := none
  lastName : Option Text := none
  state : Option Text := none
  profileID : Option Text := none
  queryID : ℤ := 0
  reportTypeCode : Option Text := none
  subscriptionQuantityRemaining : ℤ := 0
  subscriptionOrderID : ℤ := 0
  deriving DecidableEq

structure Cart where
  items : Option (List OrderItem) := none
  deriving DecidableEq

/-- `ClientLib.Order`. -/
structure Order where
  orderID : ℤ
  orderExternalID : ℤ
  orderDate : Option ℤ
  orderTotal : ℤ
  visitID : ℤ
  userID : ℤ
  items : List OrderItem
  deriving DecidableEq

/-- The cart and the current query are kept in the cached visit only, not in the table. -/
structure DBVisit where
  visitID : ℤ
  visitGuid : Guid
  siteID : ℕ
  userID : ℤ := 0
  userGuid : Option Guid := none
  referCode : Option Text := none
  iwsUserToken : Option Text := none
  iwsUserTokenExpiry : Option ℤ := none
  iwsUserID : Option ℤ := none
  storefrontUserToken : Option Text := none
  robotID : ℤ := 0
  cart : Option Cart := none
  currentQueryID : ℤ := 0
  currentQueryState : Option Text := none
  deriving DecidableEq

/-- `CallContext`, once the visit has been looked up; `authorizedUserID` is 0 for nobody. -/
structure CallContext where
  siteID : ℕ
  visitID : ℤ := 0
  authorizedUserID : ℤ := 0
  dbVisit : Option DBVisit := none
  dbUser : Option UserRow := none
  deriving DecidableEq

def intText (n : ℤ) : Text :=
  if n < 0 then '-' :: Nat.toDigits 10 n.natAbs else Nat.toDigits 10 n.natAbs

def isSpace (c : Char) : Bool :=
  c == ' ' || ('\t' ≤ c && c ≤ '\r') || c == '\u0085' || c == '\u00a0'

def isWhiteSpace (c : Char) : Bool :=
  isSpace c || c = '\u1680' || ('\u2000' ≤ c && c ≤ '\u200a') || c = '\u2028' || c = '\u2029' ||
    c = '\u202f' || c = '\u205f' || c = '\u3000'

def isNullOrWhiteSpace (s : Option Text) : Bool := (s.getD []).all isSpace

def upperChar (c : Char) : Char :=
  if 'a' ≤ c ∧ c ≤ 'z' ∨ 'à' ≤ c ∧ c ≤ 'þ' ∧ c ≠ '÷' then Char.ofNat (c.toNat - 32)
  else if c = 'š' then 'Š'
  else if c = 'œ' then 'Œ'
  else if c = 'ž' then 'Ž'
  else if c = 'ÿ' then 'Ÿ'
  else c

def toUpper (s : Text) : Text := s.map upperChar

def toLower (s : Text) : Text := s.map Sql.foldChar

namespace CallContext

def cart (ctx : CallContext) : Option Cart := ctx.dbVisit.bind (·.cart)

def cartItems (ctx : CallContext) : List OrderItem := (ctx.cart.bind (·.items)).getD []

end CallContext

end AciX
