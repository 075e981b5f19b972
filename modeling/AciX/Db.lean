import AciX.Guid
import AciX.Sql.Rows

/-!
# The tables

One record for each table of `DATABASE_ACI_X` and of the databases reached through synonyms that the
modelled procedures read or write. A column that may be `NULL` is an `Option`; `MONEY` is counted in
ten-thousandths and `DATETIME` in milliseconds from the first of January 2015.
-/

namespace AciX

open Sql

structure UserRow where
  siteID : ℕ
  id : ℤ
  userGuid : Guid
  externalID : Option ℤ := none
  emailAddress : Option Text := none
  hasValidPaymentMethod : Bool := false
  isBackofficeReader : Bool := false
  deriving DecidableEq

structure VisitRow where
  siteID : ℕ
  id : ℤ
  dateCreated : ℤ := 0
  visitGuid : Guid
  userAgentID : ℤ := 0
  ipAddress : ℤ := 0
  useCount : ℤ := 1
  userID : Option ℤ := none
  robotID : Option ℤ := none
  iwsReferCode : Option Text := none
  iwsUserToken : Option Text := none
  iwsUserTokenExpiry : Option ℤ := none
  iwsUserID : Option ℤ := none
  storefrontUserToken : Option Text := none
  deriving DecidableEq

structure ApiClientRow where
  siteID : ℕ
  apiClientID : ℤ
  clientSecret : Guid
  isEnabled : Bool

structure OrderRow where
  siteID : ℕ
  id : ℤ
  externalID : Option ℤ := none
  orderDate : Option ℤ := none
  userExternalID : Option ℤ := none
  userID : Option ℤ := none
  visitID : Option ℤ := none
  orderTotal : Option ℤ := none
  deriving DecidableEq

structure OrderItemRow where
  siteID : ℕ
  id : ℤ
  orderID : ℤ
  externalID : Option ℤ := none
  productExternalID : Option ℤ := none
  productID : Option ℤ := none
  referenceID : Option Text := none
  quantity : Option ℤ := none
  price : Option ℤ := none
  discountAmount : Option ℤ := none
  discountDescription : Option Text := none
  queryID : Option ℤ := none
  profileID : Option Text := none
  state : Option Text := none
  deriving DecidableEq

structure ProductRow where
  siteID : ℕ
  id : ℤ
  skuID : ℤ
  productExternalID : ℤ
  price : ℤ
  discountAmount : Option ℤ := none
  recurringPrice : Option ℤ := none
  productName : Option Text := none
  reportTypeCode : Option Text := none

structure SkuRow where
  siteID : ℕ
  id : ℤ
  categoryID : Option ℤ := none
  price : Option ℤ := none
  deriving DecidableEq

structure CategoryRow where
  siteID : ℕ
  id : ℤ
  categoryName : Text

structure ReportTypeRow where
  siteID : ℕ
  typeCode : Text
  title : Option Text := none
  profileAttributes : Option Text := none

structure ReportRow where
  siteID : ℕ
  id : ℤ
  userID : ℤ
  orderItemID : ℤ
  reportTypeCode : Text
  queryID : ℤ
  profileID : Text
  state : Option Text := none
  reportDate : ℤ := 0
  json : Text := []
  html : Text := []
  deriving DecidableEq

structure SearchResultsRow where
  id : ℤ
  firstNameID : Option ℤ := none
  lastNameID : Option ℤ := none
  middleInitial : Option Text := none
  state : Option Text := none

structure NameRow where
  id : ℤ
  name : Option Text

structure PageRow where
  id : ℤ
  pageCode : Option Text

structure PageBlockRow where
  pageID : ℤ
  blockID : ℤ
  deriving DecidableEq

structure BlockRow where
  id : ℤ
  blockName : Text
  isEnabled : Bool

structure SectionRow where
  id : ℤ
  blockID : ℤ
  sectionName : Text
  isEnabled : Bool

structure VariationRow where
  id : ℤ
  sectionID : ℤ
  isEnabled : Bool
  viewName : Option Text := none
  viewFieldNames : Option Text := none
  deriving DecidableEq

/-- The columns `DBOrderItem.Read` asks for that the `SELECT` list of `spOrderGet` does not name.
The reader leaves a column the procedure did not return at its default. -/
structure ItemColumns where
  productToken : Option Text := none
  offerToken : Option Text := none
  productName : Option Text := none
  productCode : Option Text := none
  skuCode : Option Text := none
  productType : Option Text := none
  deriving DecidableEq

structure Db where
  users : List UserRow := []
  visits : List VisitRow := []
  visitSequence : ℤ := 355000000
  apiClients : List ApiClientRow := []
  orders : List OrderRow := []
  orderItems : List OrderItemRow := []
  products : List ProductRow := []
  skus : List SkuRow := []
  categories : List CategoryRow := []
  reportTypes : List ReportTypeRow := []
  reports : List ReportRow := []
  searchResults : List SearchResultsRow := []
  firstNames : List NameRow := []
  lastNames : List NameRow := []
  pages : List PageRow := []
  pageBlocks : List PageBlockRow := []
  blocks : List BlockRow := []
  sections : List SectionRow := []
  variations : List VariationRow := []
  itemColumns : ℤ → ItemColumns := fun _ => {}
  geoStates : List (Text × Text) := []

/-- The primary keys, unique indexes and foreign keys of the order tables. -/
structure Db.OrderKeys (db : Db) : Prop where
  orders : Sql.Unique (fun o : OrderRow => (o.siteID, o.id)) db.orders
  ordersExternal : Sql.Unique (fun o : OrderRow => (o.siteID, o.externalID)) db.orders
  orderItems : Sql.Unique (fun i : OrderItemRow => (i.siteID, i.id)) db.orderItems
  products : Sql.Unique (fun p : ProductRow => (p.siteID, p.id)) db.products
  skus : Sql.Unique (fun s : SkuRow => (s.siteID, s.id)) db.skus
  searchResults : Sql.Unique SearchResultsRow.id db.searchResults
  visits : Sql.Unique (fun v : VisitRow => (v.siteID, v.id)) db.visits
  itemOrder : ∀ i ∈ db.orderItems, ∃ o ∈ db.orders, o.siteID = i.siteID ∧ o.id = i.orderID
  productSku : ∀ p ∈ db.products, ∃ s ∈ db.skus, s.siteID = p.siteID ∧ s.id = p.skuID

theorem Db.orderKeys_iff {db : Db} : db.OrderKeys ↔
    Sql.Unique (fun o : OrderRow => (o.siteID, o.id)) db.orders
    ∧ Sql.Unique (fun o : OrderRow => (o.siteID, o.externalID)) db.orders
    ∧ Sql.Unique (fun i : OrderItemRow => (i.siteID, i.id)) db.orderItems
    ∧ Sql.Unique (fun p : ProductRow => (p.siteID, p.id)) db.products
    ∧ Sql.Unique (fun s : SkuRow => (s.siteID, s.id)) db.skus
    ∧ Sql.Unique SearchResultsRow.id db.searchResults
    ∧ Sql.Unique (fun v : VisitRow => (v.siteID, v.id)) db.visits
    ∧ (∀ i ∈ db.orderItems, ∃ o ∈ db.orders, o.siteID = i.siteID ∧ o.id = i.orderID)
    ∧ ∀ p ∈ db.products, ∃ s ∈ db.skus, s.siteID = p.siteID ∧ s.id = p.skuID :=
  ⟨fun h => ⟨h.1, h.2, h.3, h.4, h.5, h.6, h.7, h.8, h.9⟩,
    fun ⟨h1, h2, h3, h4, h5, h6, h7, h8, h9⟩ => ⟨h1, h2, h3, h4, h5, h6, h7, h8, h9⟩⟩

instance (db : Db) : Decidable db.OrderKeys := decidable_of_iff _ Db.orderKeys_iff.symm

end AciX
