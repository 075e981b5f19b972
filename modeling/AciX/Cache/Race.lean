import AciX.Cache.Bulk
import AciX.Proc

/-!
# A lookup while the row is updated

`EntityCacheBase.Get` reads the cache, on a miss the database, and puts what it read into the cache.
Another process updates the database and then the entry. If the lookup has read the old row before
the update, and puts it into the cache after all that the other process does, the next lookup finds
the old row (`updated_row_returned_iff`).
-/

namespace AciX

open EntityCache

structure SharedCache (δ κ ε : Type*) where
  getFromDB : δ → List κ → List ε
  getKey : ε → κ

structure Shared (δ κ ε : Type*) where
  db : δ
  store : Store κ ε

inductive Refresh (ε : Type*) where
  | set (e : ε)
  | remove
  | get

def Refresh.ops {ε : Type*} : Refresh ε → ℕ
  | .get => 3
  | _ => 1

namespace SharedCache

variable {δ κ ε : Type*} [DecidableEq κ] (C : SharedCache δ κ ε) (key : κ)

def onDb (d : δ) : EntityCache κ ε := ⟨C.getFromDB d, C.getKey⟩

def row (d : δ) : Option ε := (C.getFromDB d [key]).head?

def write (f : Store κ ε → Store κ ε) (s : Shared δ κ ε) : Shared δ κ ε :=
  { s with store := f s.store }

def putProc (o : Option ε) : Proc (Shared δ κ ε) (Option ε) :=
  .op (write (put · key (entryOf o))) fun _ => .ret o

def loadProc : Proc (Shared δ κ ε) (Option ε) :=
  .op id fun s => putProc key (C.row key s.db)

def getProc (force : Bool) : Proc (Shared δ κ ε) (Option ε) :=
  if force then .op (write (EntityCache.remove · key)) fun _ => C.loadProc key
  else .op id fun s =>
    match s.store key with
    | none => C.loadProc key
    | some .notInDB => .ret none
    | some (.entity e) => .ret (some e)

def refreshProc : Refresh ε → Proc (Shared δ κ ε) (Option ε)
  | .set e => .op (write (put · (C.getKey e) (.entity e))) fun _ => .ret (some e)
  | .remove => .op (write (EntityCache.remove · key)) fun _ => .ret none
  | .get => C.getProc key true

def updateProc (update : δ → δ) (r : Refresh ε) : Proc (Shared δ κ ε) (Option ε) :=
  .op (fun s => { s with db := update s.db }) fun _ => C.refreshProc key r

variable {C key}

theorem getProc_exec (force : Bool) (s : Shared δ κ ε) :
    (C.getProc key force).exec s =
      (((C.onDb s.db).get force key s.store).2,
        { s with store := ((C.onDb s.db).get force key s.store).1 }) := by
  have hload : ∀ t : Shared δ κ ε, (C.loadProc key).exec t = ((C.getFromDB t.db [key]).head?,
      write (put · key (entryOf (C.getFromDB t.db [key]).head?)) t) := by
    intro t
    simp only [loadProc, putProc, row, Proc.exec, id]
  cases force
  · simp only [getProc, Bool.false_eq_true, if_false, Proc.exec, id, EntityCache.get, onDb]
    rcases s.store key with _ | ⟨e⟩ | _
    · simp only [hload]
      rcases C.getFromDB s.db [key] with _ | ⟨e, es⟩ <;> rfl
    · rfl
    · rfl
  · simp only [getProc, if_true, Proc.exec, hload, EntityCache.get, onDb, write, remove_self]
    rcases C.getFromDB s.db [key] with _ | ⟨e, es⟩ <;> rfl

def Fits (key : κ) (o : Option ε) (s : Shared δ κ ε) : Prop :=
  s.store key = none ∨ s.store key = some (entryOf o)

theorem entryOf_injective : Function.Injective (entryOf : Option ε → Entry ε) := by
  rintro (_ | a) (_ | b) h <;> simp_all [entryOf]

theorem get_eq_row_iff (s : Shared δ κ ε) :
    ((C.onDb s.db).get false key s.store).2 = C.row key s.db ↔ Fits key (C.row key s.db) s := by
  have hget : ((C.onDb s.db).get false key s.store).2 =
      answer (fun _ => C.row key s.db) false s.store key :=
    (get_spec_of_head (C := C.onDb s.db) rfl false).1
  rw [hget, answer, Fits]
  rcases hs : s.store key with _ | ⟨e⟩ | _
  · simp
  · rcases C.row key s.db with _ | e'
    · simp [cached, hs, entryOf]
    · simp [cached, hs, entryOf]
  · rcases C.row key s.db with _ | e'
    · simp [cached, hs, entryOf]
    · simp [cached, hs, entryOf]

section Harmless

variable {d : δ} {s : Shared δ κ ε}

theorem putProc_keeps {o : Option ε} (ho : o = C.row key d) :
    (putProc key o).Keeps (·.db = d) (Fits key (C.row key d)) := by
  intro s hs
  refine ⟨hs, fun _ => .inr ?_, trivial⟩
  simp [write, ho]

theorem loadProc_keeps : (C.loadProc key).Keeps (·.db = d) (Fits key (C.row key d)) :=
  fun _ hs => ⟨hs, id, putProc_keeps (hs ▸ rfl)⟩

theorem getProc_keeps : (C.getProc key false).Keeps (·.db = d) (Fits key (C.row key d)) := by
  intro s hs
  refine ⟨hs, id, ?_⟩
  dsimp only
  rcases s.store key with _ | ⟨e⟩ | _
  · exact loadProc_keeps
  · trivial
  · trivial

variable (C key d) in
/-- A `Set` writes the row that is stored under the key. -/
def SetsRow : Refresh ε → Prop
  | .set e => C.row key d = some e ∧ C.getKey e = key
  | _ => True

theorem refreshProc_ensures {r : Refresh ε} (hr : C.SetsRow key d r) :
    (C.refreshProc key r).Ensures (·.db = d) (Fits key (C.row key d)) r.ops := by
  cases r with
  | set e =>
    obtain ⟨hrow, hkey⟩ := hr
    intro s hs
    refine ⟨hs, fun _ => .inr ?_, ⟨_, rfl⟩⟩
    simp [write, hkey, hrow, entryOf]
  | remove =>
    intro s hs
    refine ⟨hs, fun _ => .inl ?_, ⟨_, rfl⟩⟩
    simp [write]
  | get =>
    intro s hs
    refine ⟨hs, by simp, fun t ht => ⟨ht, by simp, fun u hu => ⟨hu, fun _ => .inr ?_, ⟨_, rfl⟩⟩⟩⟩
    simp [write, show t.db = d from ht]

end Harmless

section Race

open Proc (turn)

variable {d : δ} {update : δ → δ} {r : Refresh ε} {o : Option ε}

theorem settles_update (hr : C.SetsRow key (update d) r) {p : Proc (Shared δ κ ε) (Option ε)}
    (hp : p.Keeps (·.db = update d) (Fits key (C.row key (update d)))) (s : Store κ ε) :
    Proc.Settles (·.db = update d) (Fits key (C.row key (update d)))
      (turn ⟨⟨d, s⟩, p, C.updateProc key update r⟩ false) := by
  refine ⟨rfl, hp, r.ops, refreshProc_ensures hr, fun h => ?_⟩
  cases r <;> simp [Refresh.ops] at h

theorem fits_of_returned (hr : C.SetsRow key (update d) r) (s : Store κ ε) :
    ∀ turns : List Bool,
      (run turn ⟨⟨d, s⟩, .ret o, C.updateProc key update r⟩ turns).right.Finished →
      (run turn ⟨⟨d, s⟩, .ret o, C.updateProc key update r⟩ turns).state.db = update d ∧
        Fits key (C.row key (update d))
          (run turn ⟨⟨d, s⟩, .ret o, C.updateProc key update r⟩ turns).state
  | [], h => by
    obtain ⟨_, h⟩ := h
    simp [updateProc] at h
  | true :: turns, h => fits_of_returned hr s turns h
  | false :: turns, h => (settles_update hr (p := .ret o) trivial s).run h

theorem fits_of_put {d' : δ} (ho : o ≠ C.row key d') :
    ∀ {turns : List Bool} {n : ℕ} {c : Proc.Config (Shared δ κ ε) (Option ε) (Option ε)},
      c.left = putProc key o → c.state.db = d' →
      c.right.Ensures (·.db = d') (Fits key (C.row key d')) n →
      (run turn c turns).left.Finished → (run turn c turns).right.Finished →
      (run turn c turns).state.db = d' ∧
        (Fits key (C.row key d') (run turn c turns).state ↔ ¬ List.replicate n false <+: turns)
  | [], n, c, hleft, _, _, hfin, _ => by
    obtain ⟨_, h⟩ := hfin
    simp [hleft, putProc] at h
  | true :: turns, n, ⟨s, p, q⟩, hleft, hdb, hright, hfin, hfin' => by
    obtain rfl : p = putProc key o := hleft
    rw [run_cons] at hfin hfin' ⊢
    rcases n with _ | n
    · have hdone : run turn (turn ⟨s, putProc key o, q⟩ true) turns =
          turn ⟨s, putProc key o, q⟩ true :=
        Proc.run_finished (c := turn ⟨s, putProc key o, q⟩ true) ⟨o, rfl⟩ hright turns
      rw [hdone]
      refine ⟨hdb, iff_of_false ?_ (by simp)⟩
      rintro (h | h)
      · simp [turn, putProc, Proc.step, write] at h
      · simp only [turn, putProc, Proc.step, write, if_true, put_self, Option.some.injEq] at h
        exact ho (entryOf_injective h)
    · have hsettles : Proc.Settles (·.db = d') (Fits key (C.row key d'))
          (turn ⟨s, putProc key o, q⟩ true) := ⟨hdb, trivial, n + 1, hright, by simp⟩
      obtain ⟨hdb', hfits⟩ := hsettles.run hfin'
      exact ⟨hdb', iff_of_true hfits (by simp [List.replicate_succ])⟩
  | false :: turns, n, ⟨s, p, q⟩, hleft, hdb, hright, hfin, hfin' => by
    rw [run_cons] at hfin hfin' ⊢
    rcases n with _ | n
    · have hturn : turn ⟨s, p, q⟩ false = ⟨s, p, q⟩ := by
        simp [turn, Proc.Finished.step hright]
      rw [hturn] at hfin hfin' ⊢
      obtain ⟨hdb', hiff⟩ := fits_of_put ho (n := 0) hleft hdb hright hfin hfin'
      exact ⟨hdb', hiff.trans (by simp)⟩
    · obtain ⟨hdb', -, hright'⟩ := Proc.Ensures.step hright hdb
      obtain ⟨hdb', hiff⟩ := fits_of_put ho (n := n) (c := turn ⟨s, p, q⟩ false) hleft hdb' hright'
        hfin hfin'
      refine ⟨hdb', hiff.trans ?_⟩
      simp [List.replicate_succ]

theorem fits_iff (hr : C.SetsRow key (update d) r) (s : Store κ ε) {turns : List Bool}
    (hfin : (run turn ⟨⟨d, s⟩, C.getProc key false, C.updateProc key update r⟩ turns).left.Finished)
    (hfin' : (run turn
      ⟨⟨d, s⟩, C.getProc key false, C.updateProc key update r⟩ turns).right.Finished) :
    (run turn ⟨⟨d, s⟩, C.getProc key false, C.updateProc key update r⟩ turns).state.db = update d ∧
      (Fits key (C.row key (update d))
          (run turn ⟨⟨d, s⟩, C.getProc key false, C.updateProc key update r⟩ turns).state ↔
        C.row key d = C.row key (update d) ∨
          ¬(s key = none ∧ true :: true :: List.replicate (r.ops + 1) false <+: turns)) := by
  rcases turns with _ | ⟨_ | _, turns⟩
  · obtain ⟨_, h⟩ := hfin
    simp [getProc] at h
  · obtain ⟨hdb, hfits⟩ := (settles_update hr getProc_keeps s).run hfin'
    exact ⟨hdb, iff_of_true hfits (.inr (by simp))⟩
  rcases hs : s key with _ | v
  · have hmiss : turn ⟨⟨d, s⟩, C.getProc key false, C.updateProc key update r⟩ true =
        ⟨⟨d, s⟩, C.loadProc key, C.updateProc key update r⟩ := by
      simp [turn, getProc, Proc.step, hs]
    rw [run_cons, hmiss] at hfin hfin' ⊢
    rcases turns with _ | ⟨_ | _, turns⟩
    · obtain ⟨_, h⟩ := hfin
      simp [loadProc] at h
    · obtain ⟨hdb, hfits⟩ := (settles_update hr loadProc_keeps s).run hfin'
      exact ⟨hdb, iff_of_true hfits (.inr (by simp))⟩
    have hload : turn ⟨⟨d, s⟩, C.loadProc key, C.updateProc key update r⟩ true =
        ⟨⟨d, s⟩, putProc key (C.row key d), C.updateProc key update r⟩ := rfl
    rw [run_cons, hload] at hfin hfin' ⊢
    rcases turns with _ | ⟨_ | _, turns⟩
    · obtain ⟨_, h⟩ := hfin
      simp [putProc] at h
    · by_cases hne : C.row key d = C.row key (update d)
      · obtain ⟨hdb, hfits⟩ := (settles_update hr (putProc_keeps hne) s).run hfin'
        exact ⟨hdb, iff_of_true hfits (.inl hne)⟩
      have hupdated : turn ⟨⟨d, s⟩, putProc key (C.row key d), C.updateProc key update r⟩ false =
          ⟨⟨update d, s⟩, putProc key (C.row key d), C.refreshProc key r⟩ := rfl
      rw [run_cons, hupdated] at hfin hfin' ⊢
      obtain ⟨hdb, hiff⟩ := fits_of_put hne rfl rfl (refreshProc_ensures hr) hfin hfin'
      refine ⟨hdb, hiff.trans ?_⟩
      simp [List.replicate_succ, hne]
    · obtain ⟨hdb, hfits⟩ := fits_of_returned hr _ _ hfin'
      exact ⟨hdb, iff_of_true hfits (.inr (by simp [List.replicate_succ]))⟩
  · have hhit : ∃ o, turn ⟨⟨d, s⟩, C.getProc key false, C.updateProc key update r⟩ true =
        ⟨⟨d, s⟩, .ret o, C.updateProc key update r⟩ := by
      rcases v with e | _
      · exact ⟨some e, by simp [turn, getProc, Proc.step, hs]⟩
      · exact ⟨none, by simp [turn, getProc, Proc.step, hs]⟩
    obtain ⟨o, hhit⟩ := hhit
    rw [run_cons, hhit] at hfin' ⊢
    obtain ⟨hdb, hfits⟩ := fits_of_returned hr _ _ hfin'
    exact ⟨hdb, iff_of_true hfits (.inr (by simp))⟩

/-- A further lookup returns the updated row, unless the lookup missed the entry, read the old row
before the update, and put it into the cache after the other process had finished. -/
theorem updated_row_returned_iff (hr : C.SetsRow key (update d) r) (s : Store κ ε)
    {turns : List Bool}
    (hfin : (run turn ⟨⟨d, s⟩, C.getProc key false, C.updateProc key update r⟩ turns).left.Finished)
    (hfin' : (run turn
      ⟨⟨d, s⟩, C.getProc key false, C.updateProc key update r⟩ turns).right.Finished) :
    ((C.getProc key false).exec
        (run turn ⟨⟨d, s⟩, C.getProc key false, C.updateProc key update r⟩ turns).state).1 =
        C.row key (update d) ↔
      C.row key d = C.row key (update d) ∨
        ¬(s key = none ∧ true :: true :: List.replicate (r.ops + 1) false <+: turns) := by
  obtain ⟨hdb, hfits⟩ := fits_iff hr s hfin hfin'
  rw [← hfits, ← hdb, getProc_exec]
  exact get_eq_row_iff _

end Race

end SharedCache

def versionedUsers : SharedCache ℕ ℕ (ℕ × ℕ) := ⟨fun d ks => ks.map (·, d), Prod.fst⟩

/-- The lookup is over before the row is updated and the entry removed. -/
theorem updated_row_returned_of_serial :
    let c := run Proc.turn ⟨⟨0, fun _ => none⟩, versionedUsers.getProc 7 false,
      versionedUsers.updateProc 7 (· + 1) .remove⟩ [true, true, true, false, false]
    ((versionedUsers.getProc 7 false).exec c.state).1 = some (7, 1) := by
  have hsets : versionedUsers.SetsRow 7 (0 + 1) .remove := trivial
  exact (SharedCache.updated_row_returned_iff (d := 0) hsets (fun _ => none) ⟨_, rfl⟩ ⟨_, rfl⟩).2
    (.inr (by decide))

/-- The lookup puts the old row into the cache after the entry was removed. -/
theorem old_row_returned_of_overlap :
    let c := run Proc.turn ⟨⟨0, fun _ => none⟩, versionedUsers.getProc 7 false,
      versionedUsers.updateProc 7 (· + 1) .remove⟩ [true, true, false, false, true]
    c.left.Finished ∧ c.right.Finished ∧ versionedUsers.row 7 c.state.db = some (7, 1) ∧
      ((versionedUsers.getProc 7 false).exec c.state).1 = some (7, 0) :=
  ⟨⟨_, rfl⟩, ⟨_, rfl⟩, rfl, rfl⟩

end AciX
