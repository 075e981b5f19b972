import AciX.Explore
import AciX.Gpd.Directory
import AciX.Sql.Group
import AciX.Sql.Stem

/-!
# Building the directory of a city

`spGpdBuild` fills the node of a key with the most frequent names that start with its stem, and with
the letters that follow the stem in the names left over. A node of last names then builds the node
of first names of each name it lists; and a node that lists as many names as it may builds the nodes
of its letters, by one batch of calls in whose literals the letters are not escaped. The calls do
not pass on how many names a node may list. The directory is `Complete` if every last name of the
city, and with it every first name, is listed at a node that the letters lead to.
-/

namespace AciX.Gpd

open Sql

structure CityRow where
  city : City
  lastName : Text
  firstName : Text
  personCount : ℤ
  lastName_le : lastName.length ≤ 50 := by decide
  firstName_le : firstName.length ≤ 50 := by decide

namespace Key

variable (k : Key)

def stem : Text := k.firstName.getD k.lastName

def extend (letter : Text) : Key :=
  match k.firstName with
  | none => ⟨k.lastName ++ letter, none⟩
  | some firstName => ⟨k.lastName, some (firstName ++ letter)⟩

def root : Key := ⟨[], none⟩

def firstNames (lastName : Text) : Key := ⟨lastName, some []⟩

def varchar : Key := ⟨Sql.varchar 50 k.lastName, k.firstName.map (Sql.varchar 50)⟩

end Key

structure Call where
  key : Key
  maxTopN : ℕ := 50
  recurse : Bool := true

/-- What a query leaves to the server. Each choice may depend on all that is stored. -/
structure Server where
  scan : Directory → List (Text × ℤ) → List (Text × ℤ)
  order : Directory → List (Text × ℤ) → List (Text × ℤ)
  sequence : Directory → List Call → List Call
  scan_perm : ∀ d l, (scan d l).Perm l
  order_perm : ∀ d l, (order d l).Perm l
  order_desc : ∀ d l, Descending (order d l)
  sequence_perm : ∀ d l, (sequence d l).Perm l

/-- `SET ROWCOUNT`, where 0 is no limit. -/
def rowcount {α : Type} (n : ℕ) (rows : List α) : List α := if n = 0 then rows else rows.take n

section Model

variable (server : Server) (lookup : List CityRow) (city : City)

def names (k : Key) : List (Text × ℤ) :=
  match k.firstName with
  | none => (lookup.filter (·.city = city)).map fun r => (r.lastName, r.personCount)
  | some _ => (lookup.filter fun r => r.city = city && textEq r.lastName k.lastName).map
      fun r => (r.firstName, r.personCount)

def startsWith (stem name : Text) : Bool := like name (stem ++ ['%'])

def topN (d : Directory) (k : Key) (maxTopN : ℕ) : List (Text × ℤ) :=
  rowcount maxTopN (server.order d (groupBy collate
    ((server.scan d (names lookup city k)).filter fun r => startsWith k.stem r.1)))

def nextLetters (d : Directory) (k : Key) (listed : List (Text × ℤ)) : List (Text × ℤ) :=
  (groupBy collate (((server.scan d (names lookup city k)).filter fun r =>
      startsWith k.stem r.1 && len k.stem < len r.1 &&
        !listed.any fun t => textEq t.1 r.1).map
    fun r => (Sql.letterAt r.1 (len k.stem + 1), r.2))).map fun g => (char 1 g.1, g.2)

def buildNode (call : Call) (d : Directory) : Directory × List Call :=
  let k := call.key.varchar
  let top := topN server lookup city d k call.maxTopN
  let (d, id) := d.openNode city k
  let d := d.insertTopN id top
  let d := d.insertLetters id (nextLetters server lookup city d k (d.topNOf id))
  if call.recurse then
    let topCalls : List Call :=
      if k.firstName = none then top.map fun t => { key := Key.firstNames t.1 } else []
    let letters := if call.maxTopN ≤ top.length then d.lettersOf id else []
    let letterCalls : List Call := letters.map fun g => { key := k.extend g.1 }
    let batch := server.sequence d topCalls ++ server.sequence d letterCalls
    -- With a quote as letter the batch has an odd number of quotes: it does not parse, and no call
    -- of it runs.
    (d, if letters.any fun g => '\'' ∈ g.1 then [] else batch)
  else (d, [])

def spGpdBuild : ℕ → Call → Directory → Option Directory := explore (buildNode server lookup city)

end Model

section Complete

variable (d : Directory) (city : City)

inductive Reaches (k : Key) : Text → Prop
  | start : Reaches k []
  | next {stem : Text} {c : Content} {g : Text × ℤ} (h : Reaches k stem)
      (hc : d.content city (k.extend stem) = some c) (hg : g ∈ c.letters) : Reaches k (stem ++ g.1)

def Listed (k : Key) (name : Text) : Prop :=
  ∃ stem c, Reaches d city k stem ∧ d.content city (k.extend stem) = some c ∧
    ∃ t ∈ c.top, textEq t.1 name = true

def Complete (lookup : List CityRow) : Prop :=
  ∀ r ∈ lookup, r.city = city →
    Listed d city Key.root r.lastName ∧ Listed d city (Key.firstNames r.lastName) r.firstName

end Complete

/-- Whatever the server does and whatever was stored before, the directory that is built is
complete; the nesting is as deep as it needs to be. -/
def BuildsComplete (lookup : List CityRow) (city : City) (maxTopN : ℕ) : Prop :=
  ∀ (server : Server) (d : Directory), d.Wf → ∃ depth, ∀ depth' ≥ depth, ∃ d',
    spGpdBuild server lookup city depth' { key := Key.root, maxTopN := maxTopN } d = some d' ∧
      Complete d' city lookup

end AciX.Gpd
