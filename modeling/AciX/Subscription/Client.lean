import AciX.Context
import AciX.Except

/-!
# The subscriptions of a user

`GetSubscriptions` asks for the detail record of every listed subscription and keeps it in an array,
but what it returns is the list, and `CancelAllSubscriptions` goes through that list. So the details
are used only if they are what is listed (`uses_details_iff`).
-/

namespace AciX.Subscription

open List

structure Record (δ : Type) where
  subscriptionID : ℤ
  status : Option Text
  rest : δ
  deriving DecidableEq

structure Reply (α : Type) where
  completionCode : Option Text := some "1000".toList
  responseDetail : Option Text := none
  content : α

def validate {α : Type} (call : Except Exn (Reply α)) : Except Exn α := do
  let reply ← call
  if reply.completionCode ≠ some "1000".toList then .error (.iws (reply.responseDetail.getD []))
  else .ok reply.content

/-- What IWS replies. The replies about a subscription may differ from one position to the next. -/
structure Service (δ : Type) where
  getUserSubscriptions : Except Exn (Reply (Option (List (Record δ))))
  getSubscriptionDetail : ℕ → ℤ → Except Exn (Reply (Option (Record δ)))
  cancelSubscription : ℕ → ℤ → Except Exn (Reply (Option (Record δ)))

def isLoggedIn (ctx : CallContext) : Bool := ctx.dbUser.any (·.id ≠ 0)

section Model

variable {δ : Type} (ctx : CallContext) (svc : Service δ)

def getSubscription (idx : ℕ) (subscriptionID : ℤ) : Except Exn (Option (Record δ)) :=
  if isLoggedIn ctx then validate (svc.getSubscriptionDetail idx subscriptionID) else .ok none

def cancelSubscription (idx : ℕ) (subscriptionID : ℤ) : Except Exn (Option (Record δ)) :=
  if isLoggedIn ctx then validate (svc.cancelSubscription idx subscriptionID) else .ok none

def getSubscriptions : Except Exn (List (Record δ)) :=
  if isLoggedIn ctx then do
    match ← validate svc.getUserSubscriptions with
    | none => .error .nullReference
    | some subscriptions =>
      let _retVal ← subscriptions.zipIdx.mapM fun x =>
        getSubscription ctx svc x.2 x.1.subscriptionID
      return subscriptions
  else .ok []

def isActive (sub : Record δ) : Bool := sub.status = some "Active".toList

def cancelFrom : ℕ → List (Record δ) → List ℤ × Except Exn (List (Option (Record δ)))
  | _, [] => ([], .ok [])
  | idx, sub :: subs =>
    if isActive sub then
      match cancelSubscription ctx svc idx sub.subscriptionID with
      | .error e => ([sub.subscriptionID], .error e)
      | .ok cancelled =>
        let r := cancelFrom (idx + 1) subs
        (sub.subscriptionID :: r.1, r.2.map (cancelled :: ·))
    else
      let r := cancelFrom (idx + 1) subs
      (r.1, r.2.map (some sub :: ·))

def cancelAllSubscriptions : List ℤ × Except Exn (List (Option (Record δ))) :=
  if isLoggedIn ctx then
    match getSubscriptions ctx svc with
    | .error e => ([], .error e)
    | .ok subscriptions => cancelFrom ctx svc 0 subscriptions
  else ([], .ok [])

structure Replies (listed details : List (Record δ)) (cancelled : ℕ → Option (Record δ)) :
    Prop where
  list : validate svc.getUserSubscriptions = .ok (some listed)
  detail : List.Forall₂ (fun x d =>
    validate (svc.getSubscriptionDetail x.2 x.1.subscriptionID) = .ok (some d))
      listed.zipIdx details
  cancel : ∀ x ∈ listed.zipIdx,
    validate (svc.cancelSubscription x.2 x.1.subscriptionID) = .ok (cancelled x.2)

/-- The details are returned, and it is by them that a subscription is cancelled or left alone. -/
def UsesDetails (listed details : List (Record δ)) (cancelled : ℕ → Option (Record δ)) : Prop :=
  getSubscriptions ctx svc = .ok details ∧
    cancelAllSubscriptions ctx svc =
      (((listed.zip details).filter fun x => isActive x.2).map fun x => x.1.subscriptionID,
        .ok (details.mapIdx fun idx d => if isActive d then cancelled idx else some d))

end Model

section Uses

variable {δ : Type} {ctx : CallContext} {svc : Service δ} {listed details : List (Record δ)}
  {cancelled : ℕ → Option (Record δ)}

theorem getSubscriptions_eq (hctx : isLoggedIn ctx = true)
    (h : Replies svc listed details cancelled) : getSubscriptions ctx svc = .ok listed := by
  have hmap : (listed.zipIdx.mapM fun x => getSubscription ctx svc x.2 x.1.subscriptionID) =
      .ok (details.map some) := by
    rw [mapM_ok_iff, List.forall₂_map_right_iff]
    refine h.detail.imp fun x d hd => ?_
    rw [getSubscription, if_pos hctx]
    exact hd
  rw [getSubscriptions, if_pos hctx, h.list]
  simp only [bind, Except.bind, hmap]
  rfl

theorem cancelFrom_eq (hctx : isLoggedIn ctx = true) :
    ∀ {idx : ℕ} {subs : List (Record δ)}, (∀ x ∈ subs.zipIdx idx,
        validate (svc.cancelSubscription x.2 x.1.subscriptionID) = .ok (cancelled x.2)) →
      cancelFrom ctx svc idx subs = ((subs.filter isActive).map (·.subscriptionID),
        .ok (subs.mapIdx fun i d => if isActive d then cancelled (i + idx) else some d))
  | _, [], _ => rfl
  | idx, sub :: subs, h => by
    rw [zipIdx_cons] at h
    have hsub : cancelSubscription ctx svc idx sub.subscriptionID = .ok (cancelled idx) := by
      rw [cancelSubscription, if_pos hctx]
      exact h (sub, idx) mem_cons_self
    have ih := cancelFrom_eq hctx fun x hx => h x (mem_cons_of_mem _ hx)
    have hshift (i : ℕ) : i + (idx + 1) = i + 1 + idx := by omega
    simp only [cancelFrom, hsub, ih, mapIdx_cons, Nat.zero_add, hshift]
    cases hact : isActive sub
    · rw [filter_cons_of_neg (by simp [hact])]
      rfl
    · rw [filter_cons_of_pos hact]
      rfl

theorem cancelAllSubscriptions_eq (hctx : isLoggedIn ctx = true)
    (h : Replies svc listed details cancelled) :
    cancelAllSubscriptions ctx svc = ((listed.filter isActive).map (·.subscriptionID),
      .ok (listed.mapIdx fun idx d => if isActive d then cancelled idx else some d)) := by
  rw [cancelAllSubscriptions, if_pos hctx, getSubscriptions_eq hctx h]
  exact cancelFrom_eq hctx h.cancel

theorem filter_zip_self : ∀ subs : List (Record δ),
    ((subs.zip subs).filter fun x => isActive x.2).map (fun x => x.1.subscriptionID) =
      (subs.filter isActive).map (·.subscriptionID)
  | [] => rfl
  | sub :: subs => by
    rw [zip_cons_cons, filter_cons, filter_cons]
    split_ifs
    · rw [map_cons, map_cons, filter_zip_self subs]
    · exact filter_zip_self subs

/-- The details are used if and only if they are what is listed. -/
theorem uses_details_iff (hctx : isLoggedIn ctx = true)
    (h : Replies svc listed details cancelled) :
    UsesDetails ctx svc listed details cancelled ↔ details = listed := by
  refine ⟨fun huses => ?_, fun heq => ?_⟩
  · exact Except.ok.inj (huses.1.symm.trans (getSubscriptions_eq hctx h))
  · subst heq
    refine ⟨getSubscriptions_eq hctx h, ?_⟩
    rw [cancelAllSubscriptions_eq hctx h, filter_zip_self]

end Uses

def service (listed detail cancelled : Record Unit) : Service Unit where
  getUserSubscriptions := .ok { content := some [listed] }
  getSubscriptionDetail _ _ := .ok { content := some detail }
  cancelSubscription _ _ := .ok { content := some cancelled }

theorem replies_service (listed detail cancelled : Record Unit) :
    Replies (service listed detail cancelled) [listed] [detail] fun _ => some cancelled :=
  ⟨rfl, .cons rfl .nil, fun _ _ => rfl⟩

def user : CallContext :=
  { siteID := 1
    dbUser := some
      { siteID := 1, id := 7, userGuid :=
        ⟨"0f8fad5b-d9cb-469f-a165-70867728950e".toList, Guid.shape_first⟩ } }

def withStatus (status : String) : Record Unit := ⟨42, some status.toList, ()⟩

theorem active_uses_details : isLoggedIn user = true ∧
    UsesDetails user (service (withStatus "Active") (withStatus "Active") (withStatus "Cancelled"))
      [withStatus "Active"] [withStatus "Active"] fun _ => some (withStatus "Cancelled") :=
  ⟨rfl, (uses_details_iff rfl (replies_service _ _ _)).2 rfl⟩

/-- A subscription that is listed as pending is not cancelled, though it is active. -/
theorem pending_not_uses_details : ¬ UsesDetails user
    (service (withStatus "Pending") (withStatus "Active") (withStatus "Cancelled"))
    [withStatus "Pending"] [withStatus "Active"] fun _ => some (withStatus "Cancelled") := by
  intro h
  have hlist : getSubscriptions user
      (service (withStatus "Pending") (withStatus "Active") (withStatus "Cancelled")) =
        .ok [withStatus "Pending"] := getSubscriptions_eq rfl (replies_service _ _ _)
  have heq := Except.ok.inj (h.1.symm.trans hlist)
  revert heq
  decide

end AciX.Subscription
