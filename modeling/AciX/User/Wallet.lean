import AciX.Report.Optional
import AciX.User.Write

/-!
# The names of a wallet

`User.UpdateWallet` takes the name of the first active card apart at its first blank, and throws if
there is no card or no blank. The columns take 30 characters of each part, all of the code page, and
the date of the card has to be a `DATETIME` (`storesWallet_iff`).
-/

namespace AciX

open List

/-- The two parts of a name put together. -/
def joined (firstName lastName : Text) : Text :=
  if firstName = [] ∨ lastName = [] then firstName ++ lastName else firstName ++ ' ' :: lastName

namespace UserWorld

variable (siteID : ℕ) (w : UserWorld) (callerID : ℤ) (cards : List WalletCard)

variable {siteID w callerID cards}

theorem split_eq {f l : Text} (hf : ' ' ∉ f) : (f ++ ' ' :: l).takeWhile (· ≠ ' ') = f ∧
    ((f ++ ' ' :: l).dropWhile (· ≠ ' ')).drop 1 = l := by
  have hall : ∀ c ∈ f, decide (c ≠ ' ') = true := fun c hc => decide_eq_true fun e => hf (e ▸ hc)
  rw [takeWhile_append_of_pos hall, dropWhile_append_of_pos hall]
  simp

end UserWorld

end AciX
