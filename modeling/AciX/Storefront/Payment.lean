import AciX.Cart.Checkout

/-!
# Looking up the wallet

`GetPaymentInformation` calls itself with the token that comes with the code 2005, so it ends
exactly if some answer has another code (`payment_ends_iff`).
-/

namespace AciX.Storefront

structure GetPaymentInformationResponse where
  responseCode : Option Text
  replacementToken : Option Text := none
  wallet : Option (List Card) := none

abbrev Reply := Except Exn (Option GetPaymentInformationResponse)

def isRenewal : Reply → Bool
  | .ok (some r) => r.responseCode = some "2005".toList
  | _ => false

/-- The tokens that were sent, and the result; `none` if that is not there after `fuel` requests.
The `n`-th request is sent next. -/
def getPaymentInformation (replies : ℕ → Reply) : ℕ → ℕ → Option Text →
    Option (List (Option Text) × Except Exn (Option (List Card)))
  | 0, _, _ => none
  | fuel + 1, n, token =>
    match replies n with
    | .error e => some ([token], .error e)
    | .ok none => some ([token], .error .nullReference)
    | .ok (some r) =>
      if r.responseCode = some "2005".toList then
        (getPaymentInformation replies fuel (n + 1) r.replacementToken).map fun x =>
          (token :: x.1, x.2)
      else some ([token], .ok r.wallet)

def Ends (replies : ℕ → Reply) (token : Option Text) : Prop :=
  ∃ fuel x, getPaymentInformation replies fuel 0 token = some x

def Asks (env : CheckoutEnv) (ctx : CallContext) : Bool :=
  !ctx.cartItems.isEmpty && env.productGet.isOk && !(scan ctx.cartItems).freeOrder

def checkout (w : OrderWorld) (env : CheckoutEnv) (ctx : CallContext) (replies : ℕ → Reply)
    (fuel : ℕ) : Option (Outcome OrderWorld) :=
  if Asks env ctx then
    (getPaymentInformation replies fuel 0 (ctx.dbVisit.bind (·.storefrontUserToken))).map fun x =>
      w.checkout { env with paymentInformation := fun _ _ => x.2 } ctx
  else some (w.checkout env ctx)

theorem getPaymentInformation_none {replies : ℕ → Reply} : ∀ {fuel n : ℕ} {token : Option Text},
    getPaymentInformation replies fuel n token = none ↔
      ∀ k < fuel, isRenewal (replies (n + k)) = true
  | 0, n, token => by simp [getPaymentInformation]
  | fuel + 1, n, token => by
    have hsucc : (∀ k < fuel + 1, isRenewal (replies (n + k)) = true) ↔
        isRenewal (replies n) = true ∧ ∀ k < fuel, isRenewal (replies (n + 1 + k)) = true := by
      rw [Nat.forall_lt_succ_left]
      simp only [Nat.add_zero, Nat.add_right_comm n 1, Nat.add_assoc]
    rw [hsucc, getPaymentInformation]
    rcases hreply : replies n with e | _ | r
    · simp [isRenewal]
    · simp [isRenewal]
    · have hrenewal : isRenewal (.ok (some r)) = true ↔ r.responseCode = some "2005".toList :=
        decide_eq_true_iff
      rw [hrenewal]
      dsimp only
      split_ifs with hcode
      · rw [Option.map_eq_none_iff, getPaymentInformation_none, and_iff_right hcode]
      · simp only [hcode, false_and]

theorem ends_iff {replies : ℕ → Reply} (token : Option Text) :
    Ends replies token ↔ ∃ k, isRenewal (replies k) = false := by
  constructor
  · rintro ⟨fuel, x, h⟩
    by_contra hall
    simp only [not_exists, Bool.not_eq_false] at hall
    rw [getPaymentInformation_none.2 fun k _ => hall (0 + k)] at h
    cases h
  · rintro ⟨k, hk⟩
    refine ⟨k + 1, Option.ne_none_iff_exists'.1 fun h => ?_⟩
    have := getPaymentInformation_none.1 h k (by omega)
    rw [Nat.zero_add, hk] at this
    cases this

/-- The lookup ends exactly if some answer is no renewal; a checkout needs that only if it asks. -/
theorem payment_ends_iff (replies : ℕ → Reply) (token : Option Text) :
    (Ends replies token ↔ ∃ k, isRenewal (replies k) = false) ∧
      ∀ w env ctx, (∃ fuel o, checkout w env ctx replies fuel = some o) ↔
        (Asks env ctx = true → ∃ k, isRenewal (replies k) = false) := by
  refine ⟨ends_iff token, fun w env ctx => ?_⟩
  unfold checkout
  split_ifs with hasks
  · rw [← ends_iff (ctx.dbVisit.bind (·.storefrontUserToken)), Ends]
    simp only [hasks, forall_const, Option.map_eq_some_iff]
    constructor
    · rintro ⟨fuel, o, x, hx, -⟩
      exact ⟨fuel, x, hx⟩
    · rintro ⟨fuel, x, hx⟩
      exact ⟨fuel, _, x, hx, rfl⟩
  · exact iff_of_true ⟨0, _, rfl⟩ fun h => absurd h hasks

theorem always_renewed : ¬ Ends (fun _ => .ok (some
    { responseCode := some "2005".toList, replacementToken := some "t".toList })) none := by
  rw [ends_iff]
  rintro ⟨k, hk⟩
  cases hk

end AciX.Storefront
