import AciX.Cache.Marker
import AciX.Order.External
import AciX.Report.Create
import AciX.User.Cache
import AciX.Visit.Get

/-!
# The entity caches

The twelve subclasses of `EntityCacheBase`. Lookups are always sound for five. Four look at the
first key of each hundred only, and three read another key off an entity than it was asked for with:
`sound_iff_fine` says which lookups are sound. The procedures of `CatalogCache` and
`SiteCategoryCacheByExternalID` are not in the repository and are taken for reads of a table.
-/

namespace AciX

open List

structure SiteRow where
  id : ℕ
  siteName : Text
  seoReferCode : Option Text := none
  semReferCode : Option Text := none
  baseUrl : Option Text := none

structure DBSite where
  siteID : ℕ
  siteName : Text
  seoReferCode : Option Text
  semReferCode : Option Text
  baseUrl : Option Text

structure DBSku where
  skuID : ℤ
  productID : ℤ
  price : ℤ
  deriving DecidableEq

structure DBCatalog where
  siteID : ℤ

structure DBCategory where
  productExternalID : ℤ
  categoryName : Text := []

structure CacheDb extends Db where
  sites : List SiteRow := []
  spCatalogGet : ℤ → DBCatalog := fun siteID => { siteID := siteID }
  siteCategories : ℕ → List DBCategory := fun _ => []
  spCategorySearch : ℕ → List ℤ → List ℤ := fun _ _ => []
  spCategoryGet : ℕ → List ℤ → List DBCategory := fun _ _ => []

namespace CacheDb

section Model

variable (db : CacheDb) (siteID : ℕ)

/-- `DBSite.Read`. The procedure returns the key as `ID`; a column it does not return is read as
the default. -/
def readSite (r : SiteRow) : DBSite :=
  { siteID := 0
    siteName := r.siteName
    seoReferCode := r.seoReferCode
    semReferCode := r.semReferCode
    baseUrl := r.baseUrl }

def spSiteGet (siteKeys : List ℕ) : List DBSite :=
  (db.sites.filter fun r => r.id ∈ siteKeys).map readSite

/-- `DBSku.Read`; the rows of `Sku` have no `ProductID`. -/
def readSku (r : SkuRow) : DBSku := { skuID := r.id, productID := 0, price := r.price.getD 0 }

def spSkuGet (skuKeys : List ℤ) : List DBSku :=
  (db.skus.filter (·.siteID = siteID)).flatMap fun r =>
    (skuKeys.filter (· = r.id)).map fun _ => readSku r

/-- A text that does not convert to an identifier fails in the procedure's parameter. -/
def badVisit (key : Text) : Bool := (Guid.parse key).isNone

def badTypeCode (key : Text) : Bool := 255 < (Sql.rtrim key).length

def visitCache : ThrowingCache Text DBVisit :=
  { db.toDb.visitCache with throws := fun keys => keys.head?.any badVisit }

def reportTypeCache : ThrowingCache Text ReportTypeRow :=
  { db.toDb.reportTypeCache siteID with throws := fun keys => keys.any badTypeCode }

def siteCache : ThrowingCache ℕ DBSite where
  getFromDB := db.spSiteGet
  getKey := DBSite.siteID

def catalogCache : ThrowingCache ℤ DBCatalog where
  getFromDB keys := keys.head?.toList.map db.spCatalogGet
  getKey := DBCatalog.siteID

def siteSkuCache : ThrowingCache ℤ DBSku where
  getFromDB := db.spSkuGet siteID
  getKey := DBSku.productID

def siteCategoryCacheByExternalID : ThrowingCache ℤ DBCategory where
  getFromDB keys := db.spCategoryGet siteID (db.spCategorySearch siteID keys)
  getKey := DBCategory.productExternalID

end Model

end CacheDb

inductive CacheName where
  | siteOrder
  | siteOrderByExternalID
  | siteUser
  | siteUserByEmailAddress
  | siteReport
  | reportType
  | query
  | visit
  | site
  | catalog
  | siteSku
  | siteCategoryByExternalID

namespace CacheName

def Key : CacheName → Type
  | siteUserByEmailAddress | reportType | visit => Text
  | site => ℕ
  | siteOrder | siteOrderByExternalID | siteUser | siteReport | query | catalog | siteSku
  | siteCategoryByExternalID => ℤ

def Entity : CacheName → Type
  | siteOrder | siteOrderByExternalID => DBOrder
  | siteUser | siteUserByEmailAddress => UserRow
  | siteReport => DBReport
  | reportType => ReportTypeRow
  | query => DBQuery
  | visit => DBVisit
  | site => DBSite
  | catalog => DBCatalog
  | siteSku => DBSku
  | siteCategoryByExternalID => DBCategory

instance : (n : CacheName) → DecidableEq n.Key
  | siteUserByEmailAddress | reportType | visit => inferInstanceAs (DecidableEq Text)
  | site => inferInstanceAs (DecidableEq ℕ)
  | siteOrder | siteOrderByExternalID | siteUser | siteReport | query | catalog | siteSku
  | siteCategoryByExternalID => inferInstanceAs (DecidableEq ℤ)

end CacheName

namespace CacheDb

section Model

variable (db : CacheDb) (siteID : ℕ)

def cache : (n : CacheName) → ThrowingCache n.Key n.Entity
  | .siteOrder => { db.siteOrderCache siteID with }
  | .siteOrderByExternalID => { db.siteOrderCacheByExternalID siteID with }
  | .siteUser => { Users.siteUserCache id db.users siteID with }
  | .siteUserByEmailAddress => { Users.siteUserCacheByEmailAddress id db.users siteID with }
  | .siteReport => { db.siteReportCache siteID with }
  | .reportType => db.reportTypeCache siteID
  | .query => { db.queryCache with }
  | .visit => db.visitCache
  | .site => db.siteCache
  | .catalog => db.catalogCache
  | .siteSku => db.siteSkuCache siteID
  | .siteCategoryByExternalID => db.siteCategoryCacheByExternalID siteID

def Ident : (n : CacheName) → n.Key → n.Entity → Prop
  | .siteOrder, k, e => db.orderOf siteID k = some e
  | .siteOrderByExternalID, k, e => db.orderOfExternalID siteID k = some e
  | .siteUser, k, u => Users.userOf id db.users siteID k = some u
  | .siteUserByEmailAddress, k, u =>
    u ∈ db.users ∧ Users.hasEmailAddress id siteID k u = true
  | .siteReport, k, e => db.reportOf siteID k = some e
  | .reportType, k, rt => rt ∈ db.reportTypes ∧ rt.siteID = siteID ∧ Sql.textEq rt.typeCode k = true
  | .query, k, e => e ∈ db.spQueryGet k
  | .visit, k, v => ∃ g, Guid.parse k = some g ∧ v ∈ db.spVisitGetByToken g
  | .site, k, e => ∃ r ∈ db.sites, r.id = k ∧ e = readSite r
  | .catalog, k, e => e = db.spCatalogGet k
  | .siteSku, k, e => ∃ r ∈ db.skus, r.siteID = siteID ∧ r.id = k ∧ e = readSku r
  | .siteCategoryByExternalID, k, e => e ∈ db.siteCategories siteID ∧ e.productExternalID = k

open ThrowingCache in
/-- When a lookup is sound: always, for a lookup of one key, or if the keys it has to fetch that
identify something are the first of their hundred, are spelled as they are stored, or are the key 0,
which is that of all entities of a cache that reads its key from a column it is not given. -/
def Fine : (n : CacheName) → Bool → List n.Key → Store n.Key n.Entity → Prop
  | .siteOrder, _, _, _ | .siteOrderByExternalID, _, _, _ | .siteUser, _, _, _
  | .siteReport, _, _, _ | .siteCategoryByExternalID, _, _, _ => True
  | .query, force, keys, s => keys.length < 2 ∨ ∀ k ∈ needed force keys s,
      (∃ e, db.Ident siteID .query k e) → k ∈ heads (needed force keys s)
  | .catalog, force, keys, s => keys.length < 2 ∨ ∀ k ∈ needed force keys s,
      k ∈ heads (needed force keys s)
  | .visit, force, keys, s => keys.length < 2 ∨ ∀ k ∈ needed force keys s,
      (∃ e, db.Ident siteID .visit k e) → k ∈ heads (needed force keys s) ∧
        (∃ g : Guid, k = g.text) ∧ ∀ k' ∈ heads (needed force keys s), badVisit k' = false
  | .siteUserByEmailAddress, force, keys, s => keys.length < 2 ∨ ∀ k ∈ needed force keys s,
      (∃ e, db.Ident siteID .siteUserByEmailAddress k e) → k ∈ heads (needed force keys s) ∧
        ∃ u, Users.userByEmailAddress id db.users siteID k = some u ∧ u.emailAddress = some k
  | .reportType, force, keys, s => keys.length < 2 ∨ ∀ k ∈ needed force keys s,
      (∃ e, db.Ident siteID .reportType k e) →
        (∃ rt ∈ db.reportTypes, rt.siteID = siteID ∧ rt.typeCode = k) ∧
          ∀ k' ∈ needed force keys s, badTypeCode k' = false
  | .site, force, keys, s => keys.length < 2 ∨ ∀ k ∈ needed force keys s,
      (∃ e, db.Ident siteID .site k e) → k = (0 : ℕ)
  | .siteSku, force, keys, s => keys.length < 2 ∨ ∀ k ∈ needed force keys s,
      (∃ e, db.Ident siteID .siteSku k e) → k = (0 : ℤ)

/-- The constraints of the tables, and that the procedures of unknown text read what their names
say. -/
structure Keys : Prop extends db.toDb.ReportKeys where
  users : Users.Keys id db.users
  catalog : ∀ k, (db.spCatalogGet k).siteID = k
  categories : ∀ siteID keys, keys ≠ [] → ∀ e,
    e ∈ db.spCategoryGet siteID (db.spCategorySearch siteID keys) ↔
      e ∈ db.siteCategories siteID ∧ e.productExternalID ∈ keys

end Model

variable {db : CacheDb} {siteID : ℕ}

theorem category_pointwise (hk : db.Keys) :
    (db.siteCategoryCacheByExternalID siteID).Pointwise
      (fun k e => e ∈ db.siteCategories siteID ∧ e.productExternalID = k) fun _ => false where
  mem ks hne e := by
    refine (hk.categories siteID ks hne e).trans ⟨fun ⟨he, hk⟩ => ⟨_, hk, he, rfl⟩, ?_⟩
    rintro ⟨k, hk, he, rfl⟩
    exact ⟨he, hk⟩
  throws ks := by simp [siteCategoryCacheByExternalID]
  bad_none k h := by cases h

theorem reportType_pointwise (hk : db.Keys) : (db.reportTypeCache siteID).Pointwise
    (fun k rt => rt ∈ db.reportTypes ∧ rt.siteID = siteID ∧ Sql.textEq rt.typeCode k = true)
    badTypeCode where
  mem ks _ rt := by
    simp only [reportTypeCache, Db.reportTypeCache, Db.spReportTypeGet, mem_flatMap,
      mem_filter, mem_map, decide_eq_true_eq]
    constructor
    · rintro ⟨rt', ⟨h1, h2⟩, k, ⟨hk, h3⟩, rfl⟩
      exact ⟨k, hk, h1, h2, h3⟩
    · rintro ⟨k, hk, h1, h2, h3⟩
      exact ⟨rt, ⟨h1, h2⟩, k, ⟨hk, h3⟩, rfl⟩
  throws ks := rfl
  bad_none k hbad rt := by
    rintro ⟨h1, -, h3⟩
    have hlen := congrArg List.length (Sql.textEq_iff.1 h3)
    have hle : (Sql.rtrim rt.typeCode).length ≤ rt.typeCode.length :=
      (List.rdropWhile_prefix _ _).length_le
    have hcode := hk.typeCodes rt h1
    simp only [badTypeCode, decide_eq_true_eq] at hbad
    simp only [Sql.collate, length_map] at hlen
    omega

theorem site_pointwise : db.siteCache.Pointwise
    (fun k e => ∃ r ∈ db.sites, r.id = k ∧ e = readSite r) fun _ => false where
  mem ks _ e := by
    simp only [siteCache, spSiteGet, mem_map, mem_filter, decide_eq_true_eq]
    constructor
    · rintro ⟨r, ⟨hr, hk⟩, rfl⟩
      exact ⟨r.id, hk, r, hr, rfl, rfl⟩
    · rintro ⟨k, hk, r, hr, rfl, rfl⟩
      exact ⟨r, ⟨hr, hk⟩, rfl⟩
  throws ks := by simp [siteCache]
  bad_none k h := by cases h

theorem sku_pointwise : (db.siteSkuCache siteID).Pointwise
    (fun k e => ∃ r ∈ db.skus, r.siteID = siteID ∧ r.id = k ∧ e = readSku r) fun _ => false where
  mem ks _ e := by
    simp only [siteSkuCache, spSkuGet, mem_flatMap, mem_map, mem_filter, decide_eq_true_eq]
    constructor
    · rintro ⟨r, ⟨hr, hs⟩, k, ⟨hk, rfl⟩, rfl⟩
      exact ⟨r.id, hk, r, hr, hs, rfl, rfl⟩
    · rintro ⟨k, hk, r, hr, hs, rfl, rfl⟩
      exact ⟨r, ⟨hr, hs⟩, r.id, ⟨hk, rfl⟩, rfl⟩
  throws ks := by simp [siteSkuCache]
  bad_none k h := by cases h

theorem mem_spQueryGet {k : ℤ} {e : DBQuery} (h : e ∈ db.spQueryGet k) : e.queryID = k := by
  simp only [Db.spQueryGet, mem_flatMap, mem_filter, mem_map, decide_eq_true_eq] at h
  obtain ⟨sr, ⟨-, hid⟩, fn, -, ln, -, rfl⟩ := h
  exact hid

theorem query_headOnly : ({ db.queryCache with } : ThrowingCache ℤ DBQuery).HeadOnly
    (fun k e => e ∈ db.spQueryGet k) db.spQueryGet fun _ => false where
  getFromDB k ks := rfl
  throws k ks := rfl
  ident k e he := he
  ne_nil k e he := ne_nil_of_mem he
  bad_nil k h := by cases h
  same k e he := congrArg db.spQueryGet (mem_spQueryGet he)
  key k e he e' he' := (mem_spQueryGet he).trans (mem_spQueryGet he').symm

theorem catalog_headOnly (hk : db.Keys) : db.catalogCache.HeadOnly
    (fun k e => e = db.spCatalogGet k) (fun k => [db.spCatalogGet k]) fun _ => false where
  getFromDB k ks := rfl
  throws k ks := rfl
  ident k e he := mem_singleton.1 he
  ne_nil k e he := cons_ne_nil _ _
  bad_nil k h := by cases h
  same k e he := by
    rw [mem_singleton.1 he]
    exact congrArg (fun k => [db.spCatalogGet k]) (hk.catalog k)
  key k e he e' he' := by rw [mem_singleton.1 he, mem_singleton.1 he']

def visitsOf (db : Db) (k : Text) : List DBVisit :=
  match Guid.parse k with
  | some g => (db.spVisitGetByToken g).take 1
  | none => []

theorem mem_visitsOf (hk : db.Keys) {k : Text} {v : DBVisit} (h : v ∈ visitsOf db.toDb k) :
    Guid.parse k = some v.visitGuid ∧ v ∈ db.spVisitGetByToken v.visitGuid := by
  unfold visitsOf at h
  split at h
  · rename_i g hg
    have hv := mem_of_mem_take h
    obtain ⟨r, -, hr, hread⟩ := Db.mem_spVisitGetByToken hk.visits hv
    have hguid : v.visitGuid = g := hread.visitGuid.trans hr
    rw [hguid]
    exact ⟨hg, hv⟩
  · cases h

theorem visitsOf_congr {k k' : Text} (h : Guid.parse k = Guid.parse k') :
    visitsOf db.toDb k = visitsOf db.toDb k' := by
  simp only [visitsOf, h]

theorem visit_headOnly (hk : db.Keys) : db.visitCache.HeadOnly
    (fun k v => ∃ g, Guid.parse k = some g ∧ v ∈ db.spVisitGetByToken g) (visitsOf db.toDb)
    badVisit where
  getFromDB k ks := rfl
  throws k ks := rfl
  ident k v hv := ⟨v.visitGuid, mem_visitsOf hk hv⟩
  ne_nil k v := by
    rintro ⟨g, hg, hv⟩
    obtain ⟨a, l, hl⟩ := exists_cons_of_ne_nil (ne_nil_of_mem hv)
    simp [visitsOf, hg, hl]
  bad_nil k h := by
    simp only [badVisit, Option.isNone_iff_eq_none] at h
    simp [visitsOf, h]
  same k v hv := visitsOf_congr ((Guid.parse_text _).trans (mem_visitsOf hk hv).1.symm)
  key k v hv v' hv' := by
    have h := (mem_visitsOf hk hv).1.symm.trans (mem_visitsOf hk hv').1
    exact congrArg Guid.text (Option.some.inj h)

theorem email_headOnly (hk : db.Keys) (siteID : ℕ) :
    ({ Users.siteUserCacheByEmailAddress id db.users siteID with } :
      ThrowingCache Text UserRow).HeadOnly
    (fun k u => u ∈ db.users ∧ Users.hasEmailAddress id siteID k u = true)
    (fun k => (Users.userByEmailAddress id db.users siteID k).toList) fun _ => false where
  getFromDB k ks := hk.users.getFromDB_cons siteID k ks
  throws k ks := rfl
  ident k u hu := by
    rw [Option.mem_toList] at hu
    exact ⟨mem_of_find?_eq_some hu, find?_some hu⟩
  ne_nil k u := by
    rintro ⟨hu, hp⟩
    have : (Users.userByEmailAddress id db.users siteID k).isSome := by
      simp only [Users.userByEmailAddress, find?_isSome]
      exact ⟨u, hu, hp⟩
    simpa [Option.isSome_iff_ne_none] using this
  bad_nil k h := by cases h
  same k u hu := by
    rw [Option.mem_toList] at hu
    obtain ⟨-, -, a, ha, -⟩ := Users.userByEmailAddress_some hu
    have hkey : (Users.siteUserCacheByEmailAddress id db.users siteID).getKey u = a := by
      simp only [Users.siteUserCacheByEmailAddress, ha, Option.getD_some]
    show (Users.userByEmailAddress id db.users siteID _).toList = _
    rw [hkey, Users.userByEmailAddress_congr (hk.users.textEq_stored hu ha)]
  key k u hu u' hu' := by
    rw [Option.mem_toList] at hu hu'
    rw [Option.some.inj (hu.symm.trans hu')]

section Sound

open ThrowingCache

variable {force : Bool} {keys : List Text}

theorem visit_sound_iff (hk : db.Keys) {s : Store Text DBVisit} :
    db.visitCache.Sound (fun k v => ∃ g, Guid.parse k = some g ∧ v ∈ db.spVisitGetByToken g)
      force keys s ↔ keys.length < 2 ∨ ∀ k ∈ needed force keys s,
      (∃ v g, Guid.parse k = some g ∧ v ∈ db.spVisitGetByToken g) →
        k ∈ heads (needed force keys s) ∧ (∃ g : Guid, k = g.text) ∧
          ∀ k' ∈ heads (needed force keys s), badVisit k' = false := by
  have h := visit_headOnly hk
  rw [h.sound_iff]
  refine or_congr Iff.rfl (forall₂_congr fun k _ => ?_)
  rw [← h.exists_iff]
  refine imp_congr_right fun hex => and_congr_right fun _ => and_congr_left fun _ => ?_
  constructor
  · rintro ⟨v, -, hv⟩
    exact ⟨v.visitGuid, hv.symm⟩
  · rintro ⟨g, rfl⟩
    obtain ⟨v, hv⟩ := exists_mem_of_ne_nil _ ((h.exists_iff _).1 hex)
    have hg := (mem_visitsOf hk hv).1
    rw [Guid.parse_text, Option.some.injEq] at hg
    exact ⟨v, hv, congrArg Guid.text hg.symm⟩

theorem email_sound_iff (hk : db.Keys) {s : Store Text UserRow} :
    ({ Users.siteUserCacheByEmailAddress id db.users siteID with } :
      ThrowingCache Text UserRow).Sound
      (fun k u => u ∈ db.users ∧ Users.hasEmailAddress id siteID k u = true) force keys s ↔
    keys.length < 2 ∨ ∀ k ∈ needed force keys s,
      (∃ u, u ∈ db.users ∧ Users.hasEmailAddress id siteID k u = true) →
        k ∈ heads (needed force keys s) ∧
          ∃ u, Users.userByEmailAddress id db.users siteID k = some u ∧
            u.emailAddress = some k := by
  have h := email_headOnly hk siteID
  rw [h.sound_iff]
  refine or_congr Iff.rfl (forall₂_congr fun k _ => ?_)
  rw [← h.exists_iff]
  refine imp_congr_right fun hex => and_congr_right fun _ => ?_
  simp only [Option.mem_toList, implies_true, and_true]
  refine exists_congr fun u => and_congr_right fun hu => ?_
  obtain ⟨-, -, a, ha, -⟩ := Users.userByEmailAddress_some hu
  simp only [id_eq] at ha
  simp only [Users.siteUserCacheByEmailAddress, id_eq, ha, Option.getD_some, Option.some.injEq]

theorem reportType_sound_iff (hk : db.Keys) {s : Store Text ReportTypeRow} :
    (db.reportTypeCache siteID).Sound
      (fun k rt => rt ∈ db.reportTypes ∧ rt.siteID = siteID ∧ Sql.textEq rt.typeCode k = true)
      force keys s ↔ keys.length < 2 ∨ ∀ k ∈ needed force keys s,
      (∃ rt, rt ∈ db.reportTypes ∧ rt.siteID = siteID ∧ Sql.textEq rt.typeCode k = true) →
        (∃ rt ∈ db.reportTypes, rt.siteID = siteID ∧ rt.typeCode = k) ∧
          ∀ k' ∈ needed force keys s, badTypeCode k' = false := by
  rw [(reportType_pointwise hk).sound_iff]
  refine or_congr Iff.rfl ?_
  rw [and_iff_right fun _ k _ rt ⟨h1, h2, _⟩ => ⟨h1, h2, Sql.textEq_self _⟩]
  refine forall₂_congr fun k hkn => imp_congr_right fun _ => ?_
  rw [and_comm]
  refine and_congr_left fun _ => ⟨?_, ?_⟩
  · rintro ⟨k', -, rt, ⟨h1, h2, -⟩, rfl⟩
    exact ⟨rt, h1, h2, rfl⟩
  · rintro ⟨rt, h1, h2, rfl⟩
    exact ⟨rt.typeCode, hkn, rt, ⟨h1, h2, Sql.textEq_self _⟩, rfl⟩

theorem sound_iff_of_oneKey {κ ε : Type*} [DecidableEq κ] {C : ThrowingCache κ ε}
    {Ident : κ → ε → Prop} (h : C.Pointwise Ident fun _ => false)
    {k₀ : κ} (hkey : ∀ k e, Ident k e → C.getKey e = k₀) {keys : List κ} {s : Store κ ε} :
    C.Sound Ident force keys s ↔
      keys.length < 2 ∨ ∀ k ∈ needed force keys s, (∃ e, Ident k e) → k = k₀ := by
  rw [h.sound_iff]
  refine or_congr Iff.rfl ⟨?_, fun hone => ⟨fun _ k hk e he => ?_, fun k hk hex => ?_⟩⟩
  · rintro ⟨-, h2⟩ k hk hex
    obtain ⟨-, k', -, e', he', hk'⟩ := h2 k hk hex
    exact hk'.symm.trans (hkey k' e' he')
  · rwa [hkey k e he, ← hone k hk ⟨e, he⟩]
  · obtain ⟨e, he⟩ := hex
    exact ⟨fun _ _ => rfl, k, hk, e, he, (hkey k e he).trans (hone k hk ⟨e, he⟩).symm⟩

/-- A bulk lookup of a subclass is sound exactly if its keys are `Fine` for that subclass. -/
theorem sound_iff_fine (hk : db.Keys) (siteID : ℕ) (n : CacheName) (force : Bool)
    (keys : List n.Key) (s : Store n.Key n.Entity) :
    (db.cache siteID n).Sound (db.Ident siteID n) force keys s ↔ db.Fine siteID n force keys s := by
  cases n with
  | siteOrder =>
    exact iff_of_true (sound_of_reads (Db.siteOrderCache_reads hk.toOrderKeys siteID)
      fun _ => rfl) trivial
  | siteOrderByExternalID =>
    exact iff_of_true (sound_of_reads (Db.siteOrderCacheByExternalID_reads hk.toOrderKeys siteID)
      fun _ => rfl) trivial
  | siteUser =>
    exact iff_of_true (sound_of_reads (hk.users.siteUserCache_reads siteID) fun _ => rfl) trivial
  | siteReport =>
    exact iff_of_true (sound_of_reads (Db.siteReportCache_reads hk.toReportKeys siteID)
      fun _ => rfl) trivial
  | siteCategoryByExternalID =>
    refine iff_of_true ((category_pointwise hk).sound_iff.2 (.inr ⟨?_, ?_⟩)) trivial
    · exact fun _ k _ e he => ⟨he.1, rfl⟩
    · exact fun k hkn ⟨e, he⟩ => ⟨fun _ _ => rfl, k, hkn, e, he, he.2⟩
  | query => exact query_headOnly.sound_iff_heads fun _ _ => mem_spQueryGet
  | catalog =>
    refine ((catalog_headOnly hk).sound_iff_heads fun k e he => ?_).trans ?_
    · rw [mem_singleton.1 he]
      exact hk.catalog k
    · exact or_congr Iff.rfl (forall₂_congr fun k _ => ⟨fun h => h ⟨_, rfl⟩, fun h _ => h⟩)
  | visit => exact visit_sound_iff hk
  | siteUserByEmailAddress => exact email_sound_iff hk
  | reportType => exact reportType_sound_iff hk
  | site =>
    refine sound_iff_of_oneKey site_pointwise ?_
    rintro k e ⟨r, -, -, rfl⟩
    rfl
  | siteSku =>
    refine sound_iff_of_oneKey sku_pointwise ?_
    rintro k e ⟨r, -, -, -, rfl⟩
    rfl

def twoOfEach : CacheDb :=
  { skus := [{ siteID := 1, id := 5 }, { siteID := 1, id := 7 }]
    searchResults := [{ id := 1, firstNameID := some 1, lastNameID := some 1 },
      { id := 2, firstNameID := some 1, lastNameID := some 1 }]
    firstNames := [{ id := 1, name := some ['A'] }]
    lastNames := [{ id := 1, name := some ['B'] }] }

theorem twoOfEach_keys : twoOfEach.Keys where
  toReportKeys :=
    { toOrderKeys := by decide
      reports := by decide
      reportTypes := by decide
      firstNames := by decide
      lastNames := by decide
      initials := by decide
      typeCodes := by decide }
  users := ⟨by decide, by simp [twoOfEach], by simp [twoOfEach]⟩
  catalog _ := rfl
  categories := by simp [twoOfEach]

/-- The skus 5 and 7 are stored under the key 0 and marked as missing under their own; of the
queries 1 and 2 the second is marked as missing. -/
theorem twoOfEach_puts :
    (5, .notInDB) ∈ ((twoOfEach.siteSkuCache 1).effect false [5, 7, 9] fun _ => none).puts
    ∧ (2, .notInDB) ∈ (({ twoOfEach.queryCache with } : ThrowingCache ℤ DBQuery).effect false [1, 2]
      fun _ => none).puts := by decide

theorem twoOfEach_unsound :
    ¬ (twoOfEach.cache 1 .siteSku).Sound (twoOfEach.Ident 1 .siteSku) false ([5, 7, 9] : List ℤ)
      (fun _ => none)
    ∧ ¬ (twoOfEach.cache 1 .query).Sound (twoOfEach.Ident 1 .query) false ([1, 2] : List ℤ)
      fun _ => none := by
  constructor
  · intro h
    exact h.stored (5 : ℤ) .notInDB twoOfEach_puts.1 { skuID := 5, productID := 0, price := 0 }
      ⟨{ siteID := 1, id := 5 }, by decide, rfl, rfl, rfl⟩
  · intro h
    refine h.stored (2 : ℤ) .notInDB twoOfEach_puts.2
      { queryID := 2, firstName := some ['A'], middleInitial := none, lastName := some ['B'],
        state := none } ?_
    show _ ∈ twoOfEach.spQueryGet 2
    decide

theorem twoOfEach_sound :
    (twoOfEach.cache 1 .siteSku).Sound (twoOfEach.Ident 1 .siteSku) false ([5] : List ℤ)
      (fun _ => none)
    ∧ (twoOfEach.cache 1 .query).Sound (twoOfEach.Ident 1 .query) false ([1, 3] : List ℤ)
      fun _ => none := by
  refine ⟨(sound_iff_fine twoOfEach_keys 1 .siteSku false _ _).2 (.inl (by decide)),
    (sound_iff_fine twoOfEach_keys 1 .query false _ _).2 (.inr ?_)⟩
  have hneeded : needed false ([1, 3] : List ℤ) (fun _ => (none : Option (Entry DBQuery))) = [1, 3]
    :=
    by decide
  have hempty : twoOfEach.spQueryGet 3 = [] := by decide
  show ∀ k ∈ needed false ([1, 3] : List ℤ) (fun _ => (none : Option (Entry DBQuery))),
    (∃ e, e ∈ twoOfEach.spQueryGet k) → k ∈ heads (needed false ([1, 3] : List ℤ) _)
  rw [hneeded]
  simp only [mem_cons, not_mem_nil, or_false, forall_eq_or_imp, forall_eq, hempty,
    exists_false, false_imp_iff, and_true]
  exact fun _ => by decide

end Sound

end CacheDb

end AciX
