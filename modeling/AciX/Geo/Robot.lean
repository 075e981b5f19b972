import AciX.Sql.Like
import AciX.Sql.Rows

/-!
# Robots

`spRobotGet` is to decide by address ranges, by the user agent, which the name server has to bear
out, and by the country. The variable that the first lookup assigns starts at 0, and the first test
asks whether it is `NULL`, so the procedure always ends there. Its answer is right exactly for
addresses in a range and for visitors that are no robots (`classifies_iff`).
-/

namespace AciX

open Sql

structure RobotRow where
  id : ℤ
  robotName : Option Text := none
  userAgentLike : Option Text := none
  block : Option Bool := none
  hostnameLike : Option Text := none

structure RobotAddressRangeRow where
  robotID : ℤ
  ipAddressStart : ℤ
  ipAddressEnd : ℤ

structure MMCountryBlockRow where
  ipAddrStart : Option ℤ
  ipAddrEnd : Option ℤ
  countryIsoCode : Option Text := none
  registeredCountryIsoCode : Option Text := none
  representedCountryIsoCode : Option Text := none

structure GeoDb where
  robots : List RobotRow := []
  robotAddressRanges : List RobotAddressRangeRow := []
  countryBlocks : List MMCountryBlockRow := []

structure Dns where
  reverseLookup : Text → Option Text
  forwardLookup : Text → Option Text
  ipAddressToString : ℤ → Text

structure RobotAnswer where
  robotID : ℤ
  robotName : Option Text := none
  isBlocked : Option Bool := none
  deriving DecidableEq

namespace GeoDb

section Model

variable (db : GeoDb) (dns : Dns) (userAgent : Option Text) (ipAddress : ℤ)
  (stringIpAddress : Option Text)

def RobotAddressRangeRow.contains (r : RobotAddressRangeRow) (ipAddress : ℤ) : Bool :=
  ipAddress ≥ r.ipAddressStart && ipAddress ≤ r.ipAddressEnd

def inRange : Bool := db.robotAddressRanges.any (RobotAddressRangeRow.contains · ipAddress)

def nextRobotID : ℤ := 1 + maxFrom 0 (db.robots.map (·.id))

def agentMatches (r : RobotRow) : Bool :=
  match userAgent, r.userAgentLike with
  | some agent, some pattern => like agent pattern
  | _, _ => false

def named (name : Text) (r : RobotRow) : Bool := r.robotName.any (textEq · name)

def addressText : Text :=
  varchar 20 (stringIpAddress.getD (dns.ipAddressToString ipAddress))

def hostname : Text :=
  varchar 128 ((dns.reverseLookup (addressText dns ipAddress stringIpAddress)).getD [])

def isFraud (r : RobotRow) : Bool :=
  let host := hostname dns ipAddress stringIpAddress
  textEq host [] ||
    !textEq ((dns.forwardLookup host).getD []) (addressText dns ipAddress stringIpAddress) ||
    match r.hostnameLike with
    | some pattern => !like host pattern
    | none => false

def fraudName : Text := varchar 128 ("FRAUD:".toList ++ userAgent.getD [])

def countryIsoCode : Option Text :=
  (selectLast (fun b => b.ipAddrStart.any (· ≤ ipAddress) && b.ipAddrEnd.any (· ≥ ipAddress))
    db.countryBlocks).map fun b => char 2 (b.representedCountryIsoCode.getD
      (b.countryIsoCode.getD (b.registeredCountryIsoCode.getD "??".toList)))

def foreign (code : Text) : Bool := !textEq code "US".toList && !textEq code "CA".toList

def blockedCountryName (code : Text) : Text := "BlockedCountry:".toList ++ code

def addRange (robotID : ℤ) : GeoDb :=
  { db with robotAddressRanges := db.robotAddressRanges ++
      [{ robotID := robotID, ipAddressStart := ipAddress, ipAddressEnd := ipAddress }] }

def addRobot (name : Text) : GeoDb :=
  { db with robots := db.robots ++
      [{ id := db.nextRobotID, robotName := some name, block := some true }] }

/-- A robot the user agent names, which is not blocked, is checked unless its address is known. -/
def checkRobot (r : RobotRow) : GeoDb × ℤ :=
  if db.inRange ipAddress then (db, r.id)
  else if !isFraud dns ipAddress stringIpAddress r then (db.addRange ipAddress r.id, r.id)
  else
    match selectLast (named (fraudName userAgent)) db.robots with
    | some f => (db.addRange ipAddress f.id, f.id)
    | none =>
      ((db.addRobot (fraudName userAgent)).addRange ipAddress db.nextRobotID, db.nextRobotID)

def checkCountry : GeoDb × Option ℤ :=
  match db.countryIsoCode ipAddress with
  | none => (db, none)
  | some code =>
    if foreign code then
      match selectLast (named (blockedCountryName code)) db.robots with
      | some r => (db, some r.id)
      | none => (db.addRobot (blockedCountryName code), none)
    else (db, none)

def byUserAgent (out : RobotAnswer) : GeoDb × RobotAnswer :=
  match selectLast (agentMatches userAgent) db.robots with
  | some r =>
    let s := if r.block.getD false then (db, r.id)
      else db.checkRobot dns userAgent ipAddress stringIpAddress r
    (s.1, { robotID := s.2, robotName := r.robotName, isBlocked := r.block })
  | none =>
    let s := db.checkCountry ipAddress
    (s.1, { out with robotID := s.2.getD 0 })

def spRobotGet (out : RobotAnswer) : GeoDb × RobotAnswer :=
  let robotID : Option ℤ :=
    match selectLast (RobotAddressRangeRow.contains · ipAddress) db.robotAddressRanges with
    | some range => some range.robotID
    | none => some 0
  match robotID with
  | some id =>
    match selectLast (·.id = id) db.robots with
    | some r => (db, { robotID := id, robotName := r.robotName, isBlocked := r.block })
    | none => (db, { out with robotID := id })
  | none => db.byUserAgent dns userAgent ipAddress stringIpAddress out

/-- The answer a visitor is to get: from the tables before, the tables after and the answer. -/
structure Classifies (db' : GeoDb) (a : RobotAnswer) : Prop where
  range : db.inRange ipAddress = true →
    ∃ r ∈ db.robotAddressRanges, RobotAddressRangeRow.contains r ipAddress = true ∧
      a.robotID = r.robotID
  agent : db.inRange ipAddress = false → db.robots.any (agentMatches userAgent) = true →
    ∃ r ∈ db.robots, agentMatches userAgent r = true ∧
      if r.block = some true ∨ isFraud dns ipAddress stringIpAddress r = false then
        a.robotID = r.id
      else a.isBlocked = some true ∧
        ∃ f ∈ db'.robots, f.id = a.robotID ∧ named (fraudName userAgent) f = true
  country : db.inRange ipAddress = false → db.robots.any (agentMatches userAgent) = false →
    ∀ code, db.countryIsoCode ipAddress = some code → foreign code = true →
      a.isBlocked = some true ∧
        ∃ f ∈ db'.robots, f.id = a.robotID ∧ named (blockedCountryName code) f = true
  none : db.inRange ipAddress = false → db.robots.any (agentMatches userAgent) = false →
    (∀ code, db.countryIsoCode ipAddress = some code → foreign code = false) → a.robotID = 0
  flag : ∀ r ∈ db'.robots, r.id = a.robotID → a.isBlocked = r.block

/-- The declared keys: robots are numbered from 1 on, and a range belongs to a robot. -/
structure Keys : Prop where
  robots : Sql.Unique RobotRow.id db.robots
  robotIDs : ∀ r ∈ db.robots, 1 ≤ r.id
  ranges : ∀ a ∈ db.robotAddressRanges, ∃ r ∈ db.robots, r.id = a.robotID

end Model

variable {db : GeoDb} {dns : Dns} {userAgent : Option Text} {ipAddress : ℤ}
  {stringIpAddress : Option Text} {out : RobotAnswer}

theorem inRange_eq_false : db.inRange ipAddress = false ↔
    selectLast (RobotAddressRangeRow.contains · ipAddress) db.robotAddressRanges = none := by
  simp [inRange, selectLast_none, List.any_eq_false]

theorem spRobotGet_of_inRange (hk : db.Keys) (h : db.inRange ipAddress = true) (dns : Dns)
    (userAgent stringIpAddress : Option Text) (out : RobotAnswer) :
    ∃ a ∈ db.robotAddressRanges, RobotAddressRangeRow.contains a ipAddress = true ∧
      ∃ r ∈ db.robots, r.id = a.robotID ∧
        db.spRobotGet dns userAgent ipAddress stringIpAddress out
          = (db, { robotID := r.id, robotName := r.robotName, isBlocked := r.block }) := by
  obtain ⟨b, hb, hc⟩ := List.any_eq_true.1 h
  obtain ⟨a, ha⟩ := selectLast_isSome (p := (RobotAddressRangeRow.contains · ipAddress)) hb hc
  obtain ⟨hmem, hin⟩ := selectLast_mem ha
  obtain ⟨r, hr, hid⟩ := hk.ranges a hmem
  obtain ⟨r', hr'⟩ := selectLast_isSome (p := fun r => decide (r.id = a.robotID)) hr (by simp [hid])
  obtain ⟨hmem', hid'⟩ := selectLast_mem hr'
  rw [decide_eq_true_eq] at hid'
  refine ⟨a, hmem, hin, r', hmem', hid', ?_⟩
  unfold spRobotGet
  simp only [ha, hr', hid']

theorem spRobotGet_of_not_inRange (hk : db.Keys) (h : db.inRange ipAddress = false) :
    db.spRobotGet dns userAgent ipAddress stringIpAddress out =
      (db, { out with robotID := 0 }) := by
  have hnone : selectLast (fun r : RobotRow => decide (r.id = 0)) db.robots = none := by
    rw [selectLast_none]
    intro r hr
    have := hk.robotIDs r hr
    rw [decide_eq_false_iff_not]
    omega
  unfold spRobotGet
  simp only [inRange_eq_false.1 h, hnone]

/-- A visitor is classified as meant exactly if its address is in a range, or its user agent names
no robot and its country is not one to block. -/
theorem classifies_iff (hk : db.Keys) (dns : Dns) (userAgent : Option Text) (ipAddress : ℤ)
    (stringIpAddress : Option Text) (out : RobotAnswer) :
    db.Classifies dns userAgent ipAddress stringIpAddress
        (db.spRobotGet dns userAgent ipAddress stringIpAddress out).1
        (db.spRobotGet dns userAgent ipAddress stringIpAddress out).2 ↔
      db.inRange ipAddress = true ∨ db.robots.any (agentMatches userAgent) = false ∧
        ∀ code, db.countryIsoCode ipAddress = some code → foreign code = false := by
  have hpos : ∀ r ∈ db.robots, r.id ≠ 0 := by
    intro r hr
    have := hk.robotIDs r hr
    omega
  rcases hin : db.inRange ipAddress with _ | _
  · rw [spRobotGet_of_not_inRange hk hin]
    simp only [Bool.false_eq_true, false_or]
    refine ⟨fun h => ?_, fun ⟨hagent, hcountry⟩ => ?_⟩
    · rcases hagent : db.robots.any (agentMatches userAgent) with _ | _
      · refine ⟨rfl, fun code hcode => ?_⟩
        rcases hf : foreign code with _ | _
        · rfl
        · obtain ⟨-, f, hf, hid, -⟩ := h.country hin hagent code hcode hf
          exact absurd hid (hpos f hf)
      · obtain ⟨r, hr, -, hif⟩ := h.agent hin hagent
        split_ifs at hif
        · exact absurd hif.symm (hpos r hr)
        · obtain ⟨-, f, hf, hid, -⟩ := hif
          exact absurd hid (hpos f hf)
    · refine ⟨fun h => ?_, fun _ h => ?_, fun _ _ code hcode hf => ?_, fun _ _ _ => rfl,
        fun r hr hid => absurd hid (hpos r hr)⟩
      · rw [hin] at h
        cases h
      · rw [hagent] at h
        cases h
      · rw [hcountry code hcode] at hf
        cases hf
  · obtain ⟨a, ha, hc, r, hr, hid, heq⟩ :=
      spRobotGet_of_inRange hk hin dns userAgent stringIpAddress out
    rw [heq]
    refine iff_of_true ⟨fun _ => ⟨a, ha, hc, hid⟩, fun h => ?_, fun h => ?_, fun h => ?_,
      fun r' hr' hid' => ?_⟩ (.inl rfl)
    · rw [hin] at h
      cases h
    · rw [hin] at h
      cases h
    · rw [hin] at h
      cases h
    · rw [hk.robots.eq hr' hr hid']

end GeoDb

def oneRobot : GeoDb where
  robots :=
    [{ id := 1, robotName := some "EvilBot".toList, userAgentLike := some "%evilbot%".toList,
               block := some true }]
  robotAddressRanges := [{ robotID := 1, ipAddressStart := 10, ipAddressEnd := 20 }]

theorem oneRobot_keys : oneRobot.Keys := ⟨by decide, by decide, by decide⟩

def noDns : Dns where
  reverseLookup := fun _ => none
  forwardLookup := fun _ => none
  ipAddressToString := fun _ => []

theorem oneRobot_known : oneRobot.Classifies noDns none 15 none
    (oneRobot.spRobotGet noDns none 15 none { robotID := 0 }).1
    (oneRobot.spRobotGet noDns none 15 none { robotID := 0 }).2 :=
  (GeoDb.classifies_iff oneRobot_keys noDns none 15 none { robotID := 0 }).2 (.inl (by decide))

/-- The blocked robot comes from another address: it is let in as no robot. -/
theorem oneRobot_let_in :
    oneRobot.Keys ∧
    oneRobot.robots.any (GeoDb.agentMatches (some "EvilBot/1.0".toList)) = true ∧
    (oneRobot.spRobotGet noDns (some "EvilBot/1.0".toList) 25 none { robotID := 0 }).2
      = { robotID := 0 } ∧
    ¬ oneRobot.Classifies noDns (some "EvilBot/1.0".toList) 25 none
      (oneRobot.spRobotGet noDns (some "EvilBot/1.0".toList) 25 none { robotID := 0 }).1
      (oneRobot.spRobotGet noDns (some "EvilBot/1.0".toList) 25 none { robotID := 0 }).2 := by
  have hagent : oneRobot.robots.any (GeoDb.agentMatches (some "EvilBot/1.0".toList)) = true := by
    decide
  refine ⟨oneRobot_keys, hagent, by decide, fun h => ?_⟩
  obtain ⟨r, hr, -, hif⟩ := h.agent (by decide) hagent
  obtain rfl := List.mem_singleton.1 hr
  rw [if_pos (.inl rfl)] at hif
  revert hif
  decide

end AciX
