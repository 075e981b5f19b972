import AciX.Cache.Marker
import AciX.Db

/-!
# The caches of users

`SiteUserCache` keeps a site's users by id and `SiteUserCacheByEmailAddress` by the text they were
asked for with. The server compares email addresses without regard to case and trailing blanks, so a
user answers to many texts; `GetKey` is the one text that is stored. The rows may have more columns
than `row` shows.
-/

namespace AciX.Users

open List Sql

variable {ρ : Type*} (row : ρ → UserRow) (users : List ρ) (siteID : ℕ)

def spUserGet (userIDs : List ℤ) : List ρ :=
  users.filter fun u => (row u).siteID = siteID && (row u).id ∈ userIDs

def hasEmailAddress (emailAddress : Text) (u : ρ) : Bool :=
  (row u).siteID = siteID &&
    ((row u).emailAddress.any fun a => textEq a (varchar 128 emailAddress))

def spUserSearch (emailAddress : Text) : ℤ :=
  (((users.filter (hasEmailAddress row siteID emailAddress)).map fun u => (row u).id).head?).getD 0

def siteUserCache : EntityCache ℤ ρ where
  getFromDB := spUserGet row users siteID
  getKey u := (row u).id

def siteUserCacheByEmailAddress : EntityCache Text ρ where
  getFromDB
    | [] => []
    | key :: _ => spUserGet row users siteID [spUserSearch row users siteID key]
  getKey u := (row u).emailAddress.getD []

def userOf (userID : ℤ) : Option ρ :=
  users.find? fun u => (row u).siteID = siteID && (row u).id = userID

def userByEmailAddress (emailAddress : Text) : Option ρ :=
  users.find? (hasEmailAddress row siteID emailAddress)

/-- The primary key of `Users`, its `IDENTITY(1, 1)` and the length of a column. -/
structure Keys : Prop where
  unique : Sql.Unique (fun u => ((row u).siteID, (row u).id)) users
  ids : ∀ u ∈ users, 1 ≤ (row u).id
  emailAddresses : ∀ u ∈ users, ∀ a ∈ (row u).emailAddress, a.length ≤ 128

variable {row users siteID}

theorem userOf_some {k : ℤ} {u : ρ} (h : userOf row users siteID k = some u) :
    u ∈ users ∧ (row u).siteID = siteID ∧ (row u).id = k := by
  have hp := find?_some h
  simp only [Bool.and_eq_true, decide_eq_true_eq] at hp
  exact ⟨mem_of_find?_eq_some h, hp.1, hp.2⟩

theorem Keys.userOf_eq (hk : Keys row users) {u : ρ} (hu : u ∈ users) :
    userOf row users (row u).siteID (row u).id = some u :=
  hk.unique.find?_eq hu (by simp) fun b _ hb => by simpa using hb

theorem Keys.siteUserCache_reads (hk : Keys row users) (siteID : ℕ) :
    (siteUserCache row users siteID).Reads (userOf row users siteID) where
  mem ks u _ := by
    simp only [siteUserCache, spUserGet, mem_filter, Bool.and_eq_true, decide_eq_true_eq]
    constructor
    · rintro ⟨hu, rfl, hid⟩
      exact ⟨(row u).id, hid, hk.userOf_eq hu⟩
    · rintro ⟨k, hks, hf⟩
      obtain ⟨hu, hs, rfl⟩ := userOf_some hf
      exact ⟨hu, hs, hks⟩
  key k u h := (userOf_some h).2.2

theorem userByEmailAddress_some {k : Text} {u : ρ}
    (h : userByEmailAddress row users siteID k = some u) :
    u ∈ users ∧ (row u).siteID = siteID ∧
      ∃ a, (row u).emailAddress = some a ∧ textEq a (varchar 128 k) = true := by
  have hp := find?_some h
  simp only [hasEmailAddress, Bool.and_eq_true, decide_eq_true_eq, Option.any_eq_true] at hp
  exact ⟨mem_of_find?_eq_some h, hp.1, hp.2⟩

theorem spUserSearch_eq (k : Text) : spUserSearch row users siteID k =
    ((userByEmailAddress row users siteID k).map fun u => (row u).id).getD 0 := by
  simp only [spUserSearch, userByEmailAddress, head?_map, head?_filter]

theorem Keys.getFromDB_cons (hk : Keys row users) (siteID : ℕ) (k : Text) (ks : List Text) :
    (siteUserCacheByEmailAddress row users siteID).getFromDB (k :: ks) =
      (userByEmailAddress row users siteID k).toList := by
  simp only [siteUserCacheByEmailAddress, spUserSearch_eq, spUserGet, mem_singleton]
  rcases hu : userByEmailAddress row users siteID k with _ | u
  · refine filter_eq_nil_iff.2 fun u hu => ?_
    have := hk.ids u hu
    simp only [Option.map_none, Option.getD_none, Bool.and_eq_true, decide_eq_true_eq]
    omega
  · obtain ⟨hmem, hs, -⟩ := userByEmailAddress_some hu
    refine hk.unique.filter_eq_singleton hmem fun b _ => ?_
    simp [hs]

theorem userByEmailAddress_congr {k k' : Text}
    (h : textEq (varchar 128 k) (varchar 128 k') = true) :
    userByEmailAddress row users siteID k = userByEmailAddress row users siteID k' := by
  have hp : hasEmailAddress row siteID k = hasEmailAddress row siteID k' := by
    funext u
    simp only [hasEmailAddress, textEq, textEq_iff.1 h]
  simp only [userByEmailAddress, hp]

theorem Keys.textEq_stored (hk : Keys row users) {k a : Text} {u : ρ}
    (h : userByEmailAddress row users siteID k = some u) (ha : (row u).emailAddress = some a) :
    textEq (varchar 128 a) (varchar 128 k) = true := by
  obtain ⟨hu, -, a', ha', heq⟩ := userByEmailAddress_some h
  rw [ha, Option.some.injEq] at ha'
  subst ha'
  rwa [varchar, take_of_length_le (hk.emailAddresses u hu a ha)]

end AciX.Users
