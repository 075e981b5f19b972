import AciX.Interleave
import AciX.Visit.Shopping

/-!
# Two requests of one visit at a time

A request takes the visit out of the cache when it begins, and whoever changes the visit writes the
whole of it back. So of two requests that overlap, one that changes the cart and one that changes
the current query or who is signed in, the one that writes first is lost (`updatesKept_iff`).
-/

namespace AciX

open EntityCache

def Action.setsCart : Action → Bool
  | .cartUpdate _ | .cartCheckout _ => true
  | _ => false

namespace World

/-- A request of the visit `g`: the visit is looked up, and later the action is carried out for the
visit as it was found. -/
def visitRequest (g : Guid) (user : Option UserRow) (a : Action) :
    Txn World (Except Exn CallContext) where
  load w := w.sendAsync (some g.text) user
  store r w :=
    match r with
    | .error _ => w
    | .ok ctx =>
      match ctx.dbVisit with
      | none => w
      | some v => (w.act ctx v a).1

def twoRequests (g : Guid) (user user' : Option UserRow) (a b : Action) :
    Bool → Txn World (Except Exn CallContext)
  | true => visitRequest g user a
  | false => visitRequest g user' b

def Changes (g : Guid) (w : World) (t : Txn World (Except Exn CallContext)) : Prop :=
  (t.exec w).visitCache g.text ≠ (t.load w).1.visitCache g.text

/-- The visit ends as if the two requests had been made one after the other. -/
def UpdatesKept (g : Guid) (w : World) (t : Bool → Txn World (Except Exn CallContext))
    (turns : List Bool) : Prop :=
  ∃ x, (Txn.interleave t w turns).state.visitCache g.text =
    ((t !x).exec ((t x).exec w)).visitCache g.text

variable {w w' : World} {v : DBVisit} {g : Guid} {user user' : Option UserRow} {a b : Action}

theorem visitRequest_exec (w : World) (g : Guid) (user : Option UserRow) (a : Action) :
    (visitRequest g user a).exec w = (w.request g.text user a).1 := by
  unfold Txn.exec visitRequest request
  dsimp only
  rcases w.sendAsync (some g.text) user with ⟨w', e | ctx⟩
  · rfl
  · rcases hv : ctx.dbVisit with _ | v <;> simp only [hv]

theorem visitRequest_load (h : w.visitCache g.text = some (.entity v)) :
    (visitRequest g user a).load w = (w, .ok (CallContext.ofVisit user (some v))) := by
  simp only [visitRequest, sendAsync, visitGet_of_entity h, Except.map]

section Actions

theorem signInVisit_congr (hdb : w'.db = w.db) (ctx ctx' : CallContext)
    (hs : ctx'.siteID = ctx.siteID) (hid : ctx'.visitID = ctx.visitID) (s : SignIn)
    (t : ℤ × Option Text × Option Text) (u : UserRow) (f f' : DBVisit → DBVisit) :
    ((w.signInVisit ctx s t u f).1.visitCache = w.visitCache ∧
      (w'.signInVisit ctx' s t u f').1.visitCache = w'.visitCache) ∨
    ∃ v', (w.signInVisit ctx s t u f).1.visitCache =
        put w.visitCache (f v').visitGuid.text (.entity (f v')) ∧
      (w'.signInVisit ctx' s t u f').1.visitCache =
        put w'.visitCache (f' v').visitGuid.text (.entity (f' v')) := by
  unfold signInVisit
  rw [hs, hid, hdb]
  rcases s.visitUpdate with e | _
  · exact .inl ⟨rfl, rfl⟩
  dsimp only
  split
  · exact .inl ⟨rfl, rfl⟩
  · exact .inr ⟨_, rfl, rfl⟩

def WritesAlike (w w' : World) (cart cart' : Option Cart) (w₁ w₁' : World) : Prop :=
  (w₁.visitCache = w.visitCache ∧ w₁'.visitCache = w'.visitCache) ∨
    ∃ v' : DBVisit,
      w₁.visitCache = put w.visitCache v'.visitGuid.text (.entity v') ∧
      w₁'.visitCache =
        put w'.visitCache v'.visitGuid.text (.entity { v' with cart := cart' }) ∧
      v'.cart = cart

variable {cart : Option Cart}

theorem WritesAlike.entries {w₁ w₁' : World} {cart' : Option Cart}
    (h : WritesAlike w w' cart cart' w₁ w₁')
    (hne : w₁.visitCache g.text ≠ w.visitCache g.text) :
    ∃ v', v'.visitGuid = g ∧ v'.cart = cart ∧ w₁.visitCache g.text = some (.entity v') ∧
      w₁'.visitCache g.text = some (.entity { v' with cart := cart' }) := by
  rcases h with ⟨h, -⟩ | ⟨v', h, h', hcart⟩
  · rw [h] at hne
    exact absurd rfl hne
  · by_cases hg : v'.visitGuid = g
    · subst hg
      exact ⟨v', rfl, hcart, by rw [h, put_self], by rw [h', put_self]⟩
    · rw [h, put_of_ne fun he => hg (Guid.text_injective he).symm] at hne
      exact absurd rfl hne

theorem authenticate_alike (hdb : w'.db = w.db) (user : Option UserRow) (v : DBVisit) (s : SignIn) :
    WritesAlike w w' v.cart cart (w.authenticate (CallContext.ofVisit user (some v)) v s).1
      (w'.authenticate (CallContext.ofVisit user (some { v with cart := cart }))
        { v with cart := cart } s).1 := by
  unfold authenticate
  rcases s.tokens with e | t
  · exact .inl ⟨rfl, rfl⟩
  have hsign : ∀ (w₁ w₁' : World) (u : UserRow), w₁.visitCache = w.visitCache →
      w₁'.visitCache = w'.visitCache → w₁'.db = w₁.db → WritesAlike w w' v.cart cart
        (w₁.signInVisit (CallContext.ofVisit user (some v)) s t u
          fun v' => { v' with cart := v.cart }).1
        (w₁'.signInVisit (CallContext.ofVisit user (some { v with cart := cart })) s t u
          fun v' => { v' with cart := cart }).1 := by
    intro w₁ w₁' u hc hc' hdb
    rcases signInVisit_congr hdb (CallContext.ofVisit user (some v))
      (CallContext.ofVisit user (some { v with cart := cart })) rfl rfl s t u
      (fun v' => { v' with cart := v.cart }) (fun v' => { v' with cart := cart }) with
      ⟨h, h'⟩ | ⟨v', h, h'⟩
    · exact .inl ⟨h.trans hc, h'.trans hc'⟩
    · exact .inr ⟨{ v' with cart := v.cart }, by rw [h, hc], by rw [h', hc'], rfl⟩
  have hupdate : w'.db.spUserUpdate (CallContext.ofVisit user (some { v with cart := cart })) s t.1
      t.2.2 t.2.1 = w.db.spUserUpdate (CallContext.ofVisit user (some v)) s t.1 t.2.2 t.2.1 := by
    rw [hdb]
    rfl
  have hcreate : w'.db.spUserCreate (CallContext.ofVisit user (some { v with cart := cart })) s t.1
      t.2.2 t.2.1 = w.db.spUserCreate (CallContext.ofVisit user (some v)) s t.1 t.2.2 t.2.1 := by
    rw [hdb]
    rfl
  dsimp only
  rw [hupdate, hcreate]
  split_ifs
  · rcases (w.db.spUserUpdate (CallContext.ofVisit user (some v)) s t.1 t.2.2 t.2.1).2 with _ | u
    · exact .inl ⟨rfl, rfl⟩
    · exact hsign _ _ u rfl rfl rfl
  · rcases w.db.spUserCreate (CallContext.ofVisit user (some v)) s t.1 t.2.2 t.2.1 with e | ⟨db, u⟩
    · exact .inl ⟨rfl, rfl⟩
    · exact hsign _ _ u rfl rfl rfl

theorem userCreate_alike (hdb : w'.db = w.db) (user : Option UserRow) (v : DBVisit) (s : SignIn) :
    WritesAlike w w' v.cart cart (w.userCreate (CallContext.ofVisit user (some v)) v s).1
      (w'.userCreate (CallContext.ofVisit user (some { v with cart := cart }))
        { v with cart := cart } s).1 := by
  unfold userCreate
  rcases s.tokens with e | t
  · exact .inl ⟨rfl, rfl⟩
  have hcreate : w'.db.spUserCreate (CallContext.ofVisit user (some { v with cart := cart })) s
      s.externalID t.2.2 t.2.1 =
        w.db.spUserCreate (CallContext.ofVisit user (some v)) s s.externalID t.2.2 t.2.1 := by
    rw [hdb]
    rfl
  dsimp only
  rw [hcreate]
  rcases w.db.spUserCreate (CallContext.ofVisit user (some v)) s s.externalID t.2.2 t.2.1 with
    e | ⟨db, u⟩
  · exact .inl ⟨rfl, rfl⟩
  · dsimp only
    have hdb' : ({ w' with db := db } : World).db = ({ w with db := db } : World).db := rfl
    rcases signInVisit_congr hdb' (CallContext.ofVisit user (some v))
      (CallContext.ofVisit user (some { v with cart := cart })) rfl rfl s t u _ _ with
      h | ⟨v', h, h'⟩
    · exact .inl h
    · exact .inr ⟨_, h, h', rfl⟩

theorem updatePassword_alike (hdb : w'.db = w.db) (user : Option UserRow) (v : DBVisit)
    (p : PasswordChange) :
    WritesAlike w w' v.cart cart (w.updatePassword (CallContext.ofVisit user (some v)) v p).1
      (w'.updatePassword (CallContext.ofVisit user (some { v with cart := cart }))
        { v with cart := cart } p).1 := by
  unfold updatePassword
  rw [hdb]
  rcases p.storefrontUserToken with e | storefrontUserToken
  · exact .inl ⟨rfl, rfl⟩
  have hvisitID : (CallContext.ofVisit user (some { v with cart := cart })).visitID = v.visitID :=
    rfl
  have hsiteID : (CallContext.ofVisit user (some { v with cart := cart })).siteID = v.siteID := rfl
  have hvisitID' : (CallContext.ofVisit user (some v)).visitID = v.visitID := rfl
  have hsiteID' : (CallContext.ofVisit user (some v)).siteID = v.siteID := rfl
  have hdbUser : (CallContext.ofVisit user (some { v with cart := cart })).dbUser =
    (CallContext.ofVisit user (some v)).dbUser := rfl
  dsimp only
  rw [hvisitID, hsiteID, hvisitID', hsiteID', hdbUser]
  split
  · exact .inl ⟨rfl, rfl⟩
  · exact .inl ⟨rfl, rfl⟩
  rcases p.iwsUserToken with e | iwsUserToken
  · exact .inl ⟨rfl, rfl⟩
  dsimp only
  split
  · exact .inl ⟨rfl, rfl⟩
  · exact .inr ⟨_, rfl, rfl, rfl⟩

theorem act_alike (hb : b.setsCart = false) (hdb : w'.db = w.db) (user : Option UserRow)
    (v : DBVisit) : WritesAlike w w' v.cart cart (w.act (CallContext.ofVisit user (some v)) v b).1
      (w'.act (CallContext.ofVisit user (some { v with cart := cart })) { v with cart := cart }
        b).1 := by
  cases b with
  | read => exact .inl ⟨rfl, rfl⟩
  | cartUpdate | cartCheckout => cases hb
  | setQuery state queryID =>
    exact .inr ⟨{ v with currentQueryState := state, currentQueryID := queryID }, rfl, rfl, rfl⟩
  | logout => exact .inr ⟨{ v with userGuid := none, userID := 0 }, rfl, rfl, rfl⟩
  | authenticate s => exact authenticate_alike hdb user v s
  | create s => exact userCreate_alike hdb user v s
  | updatePassword p => exact updatePassword_alike hdb user v p

end Actions

theorem Changes.found (hI : w.SessionInv) (h : Changes g w (visitRequest g user a)) :
    ∃ v, v.visitGuid = g ∧ (w.visitGet g.text).1.visitCache g.text = some (.entity v) ∧
      ∀ user b, (visitRequest g user b).load w =
        ((w.visitGet g.text).1, .ok (CallContext.ofVisit user (some v))) := by
  by_cases hv : ∃ v, (w.visitGet g.text).2 = .ok (some v)
  · obtain ⟨v, hv⟩ := hv
    obtain ⟨hentry, hg⟩ := visitGet_found hI hv
    rw [Guid.parse_text, Option.some.injEq] at hg
    refine ⟨v, hg.symm, hentry, fun user b => ?_⟩
    simp only [visitRequest, sendAsync, hv, Except.map]
  · refine absurd ?_ h
    rw [visitRequest_exec, request_of_not_found fun v h => hv ⟨v, h⟩]
    rfl

theorem store_cartUpdate (w : World) (user : Option UserRow) (hg : v.visitGuid = g)
    (cart : Option Cart) :
    ((visitRequest g user (.cartUpdate cart)).store
        (.ok (CallContext.ofVisit user (some v))) w).visitCache g.text =
      some (.entity { v with cart := cart }) ∧
    ((visitRequest g user (.cartUpdate cart)).store
        (.ok (CallContext.ofVisit user (some v))) w).db = w.db := by
  subst hg
  exact ⟨visitSet_visitCache_self (w := w) { v with cart := cart }, rfl⟩

theorem exec_cartUpdate (hg : v.visitGuid = g) (h : w.visitCache g.text = some (.entity v))
    (cart : Option Cart) :
    ((visitRequest g user (.cartUpdate cart)).exec w).visitCache g.text =
      some (.entity { v with cart := cart }) := by
  unfold Txn.exec
  rw [visitRequest_load h]
  exact (store_cartUpdate w user hg cart).1

/-- The four ways two requests that found the visit `v` may end, the one setting the cart and the
other writing `v'`: neither overlapping order ends like one of the others. -/
theorem overlap_lost {cart : Option Cart} (hg : v.visitGuid = g)
    (hentry : w.visitCache g.text = some (.entity v)) (hb : b.setsCart = false)
    (ha : Changes g w (visitRequest g user (.cartUpdate cart)))
    (hc : Changes g w (visitRequest g user' b)) :
    let A := visitRequest g user (.cartUpdate cart)
    let B := visitRequest g user' b
    let rA : Except Exn CallContext := .ok (CallContext.ofVisit user (some v))
    let rB : Except Exn CallContext := .ok (CallContext.ofVisit user' (some v))
    ∃ e, (B.exec (A.exec w)).visitCache g.text = e ∧ (A.exec (B.exec w)).visitCache g.text = e ∧
      (B.store rB (A.store rA w)).visitCache g.text ≠ e ∧
      (A.store rA (B.store rB w)).visitCache g.text ≠ e := by
  intro A B rA rB
  obtain ⟨hA, hAdb⟩ := store_cartUpdate w user hg cart
  have hAexec : A.exec w = A.store rA w := by
    unfold Txn.exec
    rw [visitRequest_load hentry]
  have hBexec : B.exec w = B.store rB w := by
    unfold Txn.exec
    rw [visitRequest_load hentry]
  have hcart : cart ≠ v.cart := by
    intro h
    refine ha ?_
    rw [visitRequest_load hentry, hentry, exec_cartUpdate hg hentry, h]
  have hne : (B.store rB w).visitCache g.text ≠ w.visitCache g.text := by
    intro h
    refine hc ?_
    rw [visitRequest_load hentry, ← h, ← hBexec]
  -- what the other request writes for the visit as it was, and for the visit with its cart set
  have hbefore : WritesAlike w (A.store rA w) v.cart v.cart (B.store rB w)
      (B.store rB (A.store rA w)) :=
    act_alike hb hAdb user' v
  have hafter : WritesAlike w (A.store rA w) v.cart cart (B.store rB w)
      (B.exec (A.store rA w)) := by
    unfold Txn.exec
    rw [visitRequest_load hA]
    exact act_alike hb hAdb user' v
  obtain ⟨v', hg', hcart', hB, hAB⟩ := hafter.entries hne
  obtain ⟨v'', -, -, hB', hlast⟩ := hbefore.entries hne
  obtain rfl : v' = v'' := by simpa using hB.symm.trans hB'
  refine ⟨some (.entity { v' with cart := cart }), ?_, ?_, ?_, ?_⟩
  · rw [hAexec]
    exact hAB
  · rw [hBexec]
    exact exec_cartUpdate hg' hB cart
  · intro h
    have h' := hlast.symm.trans h
    simp only [Option.some.injEq, Entry.entity.injEq, DBVisit.mk.injEq, true_and, and_true] at h'
    exact hcart h'.symm
  · intro h
    have h' := (store_cartUpdate _ user hg cart).1.symm.trans h
    simp only [Option.some.injEq, Entry.entity.injEq] at h'
    have hsame : v = { v' with cart := v.cart } :=
      congrArg (fun u : DBVisit => { u with cart := v.cart }) h'
    rw [← hcart'] at hsame
    exact hne (by rw [hB, hentry, hsame])

theorem exec_visitGet (h : (w.visitGet g.text).1.visitCache g.text = some (.entity v))
    (user : Option UserRow) (a : Action)
    (hload : (visitRequest g user a).load w =
      ((w.visitGet g.text).1, .ok (CallContext.ofVisit user (some v)))) :
    (visitRequest g user a).exec (w.visitGet g.text).1 = (visitRequest g user a).exec w ∧
      (Changes g w (visitRequest g user a) →
        Changes g (w.visitGet g.text).1 (visitRequest g user a)) := by
  have hexec : (visitRequest g user a).exec (w.visitGet g.text).1 =
      (visitRequest g user a).exec w := by
    unfold Txn.exec
    rw [visitRequest_load h, hload]
  refine ⟨hexec, fun hc => ?_⟩
  unfold Changes at hc ⊢
  rw [hexec, visitRequest_load h]
  rwa [hload] at hc

/-- Two requests of one visit, of which one sets the cart and the other something else, end as one
after the other if one has written before the other reads. Else, if they change anything and the
first sets a given cart, they do not. -/
theorem updatesKept_iff (hI : w.SessionInv) (ha : a.setsCart = true) (hb : b.setsCart = false)
    {turns : List Bool} (hc : Txn.Complete turns) :
    (Txn.Serial turns → UpdatesKept g w (twoRequests g user user' a b) turns) ∧
    ((∃ cart, a = .cartUpdate cart) → Changes g w (visitRequest g user a) →
      Changes g w (visitRequest g user' b) →
        UpdatesKept g w (twoRequests g user user' a b) turns → Txn.Serial turns) := by
  refine ⟨fun ⟨x, rest, h⟩ => ?_, fun ⟨cart, hcart⟩ hA hB hkept => ?_⟩
  · subst h
    exact ⟨x, by rw [Txn.interleave_serial hc]⟩
  subst hcart
  rcases Txn.serial_or_overlap hc with hserial | ⟨x, rest, rfl⟩
  · exact hserial
  obtain ⟨v, hg, hentry, hload⟩ := hA.found hI
  obtain ⟨hAexec, hA'⟩ := exec_visitGet hentry user (.cartUpdate cart) (hload _ _)
  obtain ⟨hBexec, hB'⟩ := exec_visitGet hentry user' b (hload _ _)
  obtain ⟨e, hAB, hBA, hB₂, hA₂⟩ := overlap_lost hg hentry hb (hA' hA) (hB' hB)
  rw [hAexec] at hAB
  rw [hBexec] at hBA
  have hover := Txn.interleave_overlap (t := twoRequests g user user' (.cartUpdate cart) b) (s := w)
    hc
  obtain ⟨y, hy⟩ := hkept
  have hend : (Txn.interleave (twoRequests g user user' (.cartUpdate cart) b) w
      (x :: (!x) :: rest)).state.visitCache g.text = e := by
    cases y
    · exact hy.trans hBA
    · exact hy.trans hAB
  exfalso
  cases x
  · simp only [Bool.not_false, twoRequests, hload, visitRequest_load hentry] at hover
    rcases hover with hover | hover
    · exact hA₂ (hover ▸ hend)
    · exact hB₂ (hover ▸ hend)
  · simp only [Bool.not_true, twoRequests, hload, visitRequest_load hentry] at hover
    rcases hover with hover | hover
    · exact hB₂ (hover ▸ hend)
    · exact hA₂ (hover ▸ hend)

end World

def fillAndSearch : Bool → Txn World (Except Exn CallContext) :=
  World.twoRequests signedIn.visitGuid none none (.cartUpdate (some {}))
    (.setQuery (some "WA".toList) 42)

theorem fillAndSearch_serial :
    World.UpdatesKept signedIn.visitGuid resumed fillAndSearch [true, true, false, false] :=
  (World.updatesKept_iff resumed_inv rfl rfl (by simp [Txn.Complete])).1 ⟨true, _, rfl⟩

/-- Both requests have read the visit before the first writes it: the cart is lost. -/
theorem fillAndSearch_lost :
    let w := (Txn.interleave fillAndSearch resumed [true, false, true, false]).state
    resumed.SessionInv ∧
    w.shopping signedIn.visitGuid =
      { currentQueryID := 42, currentQueryState := some "WA".toList } ∧
    (∀ x, (((fillAndSearch !x).exec ((fillAndSearch x).exec resumed)).shopping
      signedIn.visitGuid) =
        { cart := some {}, currentQueryID := 42, currentQueryState := some "WA".toList }) ∧
    ¬ World.UpdatesKept signedIn.visitGuid resumed fillAndSearch [true, false, true, false] := by
  intro w
  have hlost : w.shopping signedIn.visitGuid =
      { currentQueryID := 42, currentQueryState := some "WA".toList } := by decide
  have hserial : ∀ x, (((fillAndSearch !x).exec ((fillAndSearch x).exec resumed)).shopping
      signedIn.visitGuid) =
        { cart := some {}, currentQueryID := 42, currentQueryState := some "WA".toList } := by
    decide
  refine ⟨resumed_inv, hlost, hserial, fun ⟨x, h⟩ => ?_⟩
  have hsame := World.shopping_congr h
  rw [hserial x, hlost] at hsame
  exact absurd hsame (by decide)

end AciX
