import AciX.Context
import AciX.Encoding.Base64

/-!
# Requests to the storefront

A method of `StorefrontClient` writes its parameters as a form, and `GetApiRequest` replaces each
`+` of the body by `%20`. Most values are encoded first; the passwords of `UpdatePassword` and both
values of `ApplyPromoItem` are not (`survives_iff`). The JSON of a user, a validation or a
transaction is sent as Base64 but not encoded, so it is lost as soon as a digit is `+`
(`arrives_iff`).
-/

namespace AciX.Storefront

open List

structure CreditCard where
  creditCardNumber : Option Text := none
  expirationDate : Option Text := none
  cardHolderName : Option Text := none
  address : Option Text := none
  city : Option Text := none
  state : Option Text := none
  zip : Option Text := none

/-- A parameter that is passed through `HttpUtility.UrlEncode`; null is sent as nothing. -/
def encoded (name : String) (value : Option Text) : Form.Field :=
  { name := name.toList, encoded := true, value := value.getD [] }

def raw (name : String) (value : Option Text) : Form.Field :=
  { name := name.toList, encoded := false, value := value.getD [] }

inductive FormCall where
  | authenticateUser (emailAddress password remoteIP : Option Text)
  | updatePassword (userToken oldPassword newPassword : Option Text)
  | addCard (userToken : Option Text) (iwsUserID : ℤ) (card : CreditCard)
  | applyPromoItem (productToken promoCode : Option Text)

namespace FormCall

def fields : FormCall → List Form.Field
  | authenticateUser emailAddress password remoteIP =>
    [encoded "email_address" emailAddress, encoded "password" password,
      encoded "remote_ip" remoteIP]
  | updatePassword userToken oldPassword newPassword =>
    [encoded "user_token" userToken, raw "old_password" oldPassword, raw "new_password" newPassword]
  | addCard userToken iwsUserID card =>
    [encoded "user_token" userToken, raw "user_id" (some (intText iwsUserID)),
      encoded "cc_num" card.creditCardNumber, encoded "exp_date" card.expirationDate,
      encoded "cardholder_name" card.cardHolderName, encoded "address" card.address,
      encoded "city" card.city, encoded "state" card.state, raw "country" (some "US".toList),
      encoded "post_code" card.zip]
  | applyPromoItem productToken promoCode =>
    [raw "promo_code" promoCode, raw "product_offering_id" productToken]

def received (c : FormCall) : List (Bytes × Bytes) :=
  Form.formDecode (Form.transport (Form.formBody c.fields))

/-- Every parameter arrives once and with its value, and nothing else does. -/
def Survives (c : FormCall) : Prop :=
  c.received = c.fields.map fun f => (utf8 f.name, utf8 f.value)

def RawPlain : FormCall → Prop
  | updatePassword _ oldPassword newPassword =>
    Form.IsPlain (oldPassword.getD []) ∧ Form.IsPlain (newPassword.getD [])
  | applyPromoItem productToken promoCode =>
    Form.IsPlain (promoCode.getD []) ∧ Form.IsPlain (productToken.getD [])
  | _ => True

theorem isName_fields (c : FormCall) : ∀ f ∈ c.fields, Form.IsName f.name := by
  cases c <;> simp only [fields, encoded, raw, forall_mem_cons] <;> decide +kernel

theorem mem_intText {n : ℤ} {c : Char} (h : c ∈ intText n) : c = '-' ∨ c.isDigit = true := by
  have hdigit : c ∈ Nat.toDigits 10 n.natAbs → c.isDigit = true :=
    Nat.isDigit_of_mem_toDigits (by decide) (by decide)
  unfold intText at h
  split_ifs at h
  · exact (mem_cons.1 h).imp_right hdigit
  · exact .inr (hdigit h)

theorem isLiteral_of_notMem : ∀ {bs : Bytes}, 43 ∉ bs → 37 ∉ bs → Form.isLiteral bs = true
  | [], _, _ => rfl
  | b :: bs, h43, h37 => by
    simp only [mem_cons, not_or] at h43 h37
    simp [Form.isLiteral, Ne.symm h43.1, Ne.symm h37.1, isLiteral_of_notMem h43.2 h37.2]

theorem isPlain_of_notMem {t : Text} (hamp : '&' ∉ t) (hplus : '+' ∉ t) (hpercent : '%' ∉ t) :
    Form.IsPlain t :=
  ⟨hamp, isLiteral_of_notMem
    (fun h => hplus ((Form.mem_utf8_iff (d := '+') (by decide)).1 h))
    (fun h => hpercent ((Form.mem_utf8_iff (d := '%') (by decide)).1 h))⟩

theorem isPlain_intText (n : ℤ) : Form.IsPlain (intText n) := by
  have hne : ∀ d : Char, d ≠ '-' → d.isDigit = false → d ∉ intText n := by
    intro d hd hdigit hm
    rcases mem_intText hm with h | h
    · exact hd h
    · rw [hdigit] at h
      cases h
  exact isPlain_of_notMem (hne '&' (by decide) (by decide)) (hne '+' (by decide) (by decide))
    (hne '%' (by decide) (by decide))

/-- The parameters of a call arrive exactly if those that are not encoded are plain. -/
theorem survives_iff (c : FormCall) : c.Survives ↔ c.RawPlain := by
  have hUS : Form.IsPlain ['U', 'S'] := by decide
  unfold Survives received
  rw [Form.formDecode_formBody_iff c.isName_fields]
  cases c with
  | authenticateUser emailAddress password remoteIP => simp [fields, encoded, RawPlain]
  | updatePassword userToken oldPassword newPassword => simp [fields, encoded, raw, RawPlain]
  | addCard userToken iwsUserID card =>
    have hid := isPlain_intText iwsUserID
    simp [fields, encoded, raw, RawPlain, hid, hUS]
  | applyPromoItem productToken promoCode => simp [fields, raw, RawPlain]

/-- A new password with `&` in it: it arrives cut off, and so does a parameter nobody passed. -/
theorem password_cut :
    (updatePassword (some "t".toList) (some "old".toList) (some "a&b=c".toList)).received
      = [("user_token", "t"), ("old_password", "old"), ("new_password", "a"), ("b", "c")].map
          (fun p => (utf8 p.1.toList, utf8 p.2.toList)) ∧
    ¬ (updatePassword (some "t".toList) (some "old".toList) (some "a&b=c".toList)).Survives := by
  refine ⟨by decide, ?_⟩
  unfold Survives
  decide

end FormCall

structure User where
  userID : ℤ
  firstName : Option Text
  middleName : Option Text
  lastName : Option Text
  active : Bool := true
  userAgreementAccepted : Bool := true

structure PaymentMethod where
  paymentMethodID : ℤ
  metaData : Text

structure TransactionRequestDetails where
  referrer : ℤ
  adword : Text

structure ValidateRequest where
  productOfferings : List (Option Text)
  payment : PaymentMethod
  transactionDetails : TransactionRequestDetails

structure TransactRequest extends ValidateRequest where
  token : Option Text

/-- `JsonObjectSerializer.Serialize` at the three types that are sent. -/
structure Serializer where
  user : User → Text
  validate : ValidateRequest → Text
  transact : TransactRequest → Text

def sfUser (externalID : ℤ) (firstName middleName lastName : Option Text) : User :=
  { userID := externalID, firstName := firstName, middleName := middleName, lastName := lastName }

def getProductOfferingsFromCart (cart : Option Cart) : List (Option Text) :=
  ((cart.bind (·.items)).getD []).map fun item => item.offerToken.or item.productToken

inductive JsonCall where
  | updateUser (userToken : Option Text) (user : User)
  | validateOrderFromCart (cart : Option Cart) (payment : PaymentMethod)
    (details : TransactionRequestDetails)
  | checkout (cart : Option Cart) (payment : PaymentMethod) (details : TransactionRequestDetails)
    (token : Option Text)

namespace JsonCall

section Model

variable (ser : Serializer)

def json : JsonCall → Text
  | updateUser _ user => ser.user user
  | validateOrderFromCart cart payment details =>
    ser.validate
      { productOfferings := getProductOfferingsFromCart cart
        payment := payment
        transactionDetails := details }
  | checkout cart payment details token =>
    ser.transact
      { productOfferings := getProductOfferingsFromCart cart
        payment := payment
        transactionDetails := details
        token := token }

def base64Json (c : JsonCall) : Text := Base64.toBase64String (utf8 (c.json ser))

def parameter : JsonCall → String
  | updateUser .. => "user"
  | _ => "json_data"

def fields : JsonCall → List Form.Field
  | c@(updateUser userToken _) =>
    [encoded "user_token" userToken, raw "user" (some (c.base64Json ser))]
  | c => [raw "json_data" (some (c.base64Json ser))]

def received (c : JsonCall) : List (Bytes × Bytes) :=
  Form.formDecode (Form.transport (Form.formBody (c.fields ser)))

/-- The parameter that is received decodes to the JSON that was sent. -/
def Arrives (c : JsonCall) : Prop :=
  ∃ v, (c.received ser).lookup (utf8 c.parameter.toList) = some v ∧
    Base64.base64Decode v = some (utf8 (c.json ser))

end Model

variable {ser : Serializer} (c : JsonCall)

theorem lookup_received : (c.received ser).lookup (utf8 c.parameter.toList)
    = some (Form.unescape (Form.escapePlus (utf8 (c.base64Json ser)))) := by
  have hamp : '&' ∉ c.base64Json ser := (Base64.toBase64String_plain _).1
  have hraw : ∀ name : String, Form.IsName name.toList →
      (raw name (some (c.base64Json ser))).decoded
        = [(utf8 name.toList, Form.unescape (Form.escapePlus (utf8 (c.base64Json ser))))] :=
    fun name hn => Form.decoded_raw (f := raw name (some (c.base64Json ser))) hn rfl hamp
  unfold received
  rw [Form.formDecode_formBody]
  cases c with
  | updateUser userToken user =>
    have htoken := Form.decoded_encoded (f := encoded "user_token" userToken)
      (show Form.IsName "user_token".toList by decide) rfl
    simp only [fields, flatMap_cons, flatMap_nil, append_nil, htoken,
      hraw "user" (by decide), parameter]
    rw [cons_append, lookup_cons, nil_append, lookup_cons]
    rw [show (utf8 "user".toList == utf8 (encoded "user_token" userToken).name) = false by
      simp only [encoded]; decide]
    simp
  | validateOrderFromCart cart payment details =>
    simp only [fields, flatMap_cons, flatMap_nil, append_nil,
      hraw "json_data" (by decide), parameter]
    simp
  | checkout cart payment details token =>
    simp only [fields, flatMap_cons, flatMap_nil, append_nil,
      hraw "json_data" (by decide), parameter]
    simp

theorem arrives_iff_decode : c.Arrives ser ↔
    Base64.base64Decode ((utf8 (c.base64Json ser)).map fun b => if b = 43 then 32 else b)
      = some (utf8 (c.json ser)) := by
  have hpercent : 37 ∉ utf8 (c.base64Json ser) := fun h =>
    (Base64.toBase64String_plain _).2 ((Form.mem_utf8_iff (d := '%') (by decide)).1 h)
  unfold Arrives
  simp only [lookup_received, Option.some.injEq, exists_eq_left',
    Form.unescape_escapePlus_of_notMem hpercent]

theorem plus_mem_utf8 : 43 ∈ utf8 (c.base64Json ser) ↔ 62 ∈ Base64.sextets (utf8 (c.json ser)) :=
  (Form.mem_utf8_iff (d := '+') (by decide)).trans Base64.plus_mem_iff

theorem notMem_of_arrives {c : JsonCall} (h : c.Arrives ser) :
    62 ∉ Base64.sextets (utf8 (c.json ser)) := by
  rw [← plus_mem_utf8]
  intro hmem
  have hblank : 32 ∈ (utf8 (c.base64Json ser)).map fun b => if b = 43 then 32 else b :=
    mem_map.2 ⟨43, hmem, rfl⟩
  rcases Base64.mem_of_base64Decode ((arrives_iff_decode c).1 h) 32 hblank with h | h <;>
    revert h <;> decide

/-- The JSON arrives exactly if none of the six-bit groups of its bytes is 62, the one Base64
writes as `+`. -/
theorem arrives_iff (ser : Serializer) (c : JsonCall) :
    c.Arrives ser ↔ 62 ∉ Base64.sextets (utf8 (c.json ser)) := by
  refine ⟨notMem_of_arrives, fun h => ?_⟩
  rw [← plus_mem_utf8] at h
  have hsame : ((utf8 (c.base64Json ser)).map fun b => if b = 43 then 32 else b)
      = utf8 (c.base64Json ser) := by
    conv_rhs => rw [← map_id (utf8 (c.base64Json ser))]
    refine map_congr_left fun b hb => if_neg ?_
    rintro rfl
    exact h hb
  rw [arrives_iff_decode, hsame]
  exact Base64.base64Decode_toBase64String _

end JsonCall

def quoted (t : Option Text) : Text :=
  match t with
  | none => "null".toList
  | some t => '"' :: t ++ ['"']

def userJson (u : User) : Text :=
  "\x7b\"userId\":".toList ++ intText u.userID ++ ",\"name\":\x7b\"firstName\":".toList ++
    quoted u.firstName ++ ",\"middleName\":".toList ++ quoted u.middleName ++
    ",\"lastName\":".toList ++ quoted u.lastName ++ "\x7d,\"active\":true,".toList ++
    "\"userAgreementAccepted\":true\x7d".toList

def plainSerializer : Serializer where
  user := userJson
  validate := fun _ => "\x7b\x7d".toList
  transact := fun _ => "\x7b\x7d".toList

def blaz : JsonCall :=
  .updateUser (some "t".toList) (sfUser 70 (some "Blaž".toList) none (some "Kos".toList))

/-- The Base64 of their record has a `+` in it, and the storefront cannot read it. -/
theorem blaz_lost : '+' ∈ blaz.base64Json plainSerializer ∧ ¬ blaz.Arrives plainSerializer := by
  have h : 62 ∈ Base64.sextets (utf8 (blaz.json plainSerializer)) := by decide +kernel
  exact ⟨Base64.plus_mem_iff.2 h, fun harrives => JsonCall.notMem_of_arrives harrives h⟩

end AciX.Storefront
