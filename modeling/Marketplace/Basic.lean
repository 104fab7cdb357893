/-!
# Names shared by every component

A time is a `Nat`: milliseconds on the one clock that Node, Redis and Postgres share.
-/

namespace Marketplace

/-- One invocation of an asynchronous function. It is the identity of its database transaction too:
no function of the program runs more than one at a time. -/
abbrev Call := Nat

/-- A `number` that names a row of `users`. -/
abbrev UserId := Int

def seconds (count : Nat) : Nat := count * 1000

/-- `Math.floor(Date.now() / 1000)`. -/
def floorSec (time : Nat) : Nat := time / 1000

theorem seconds_add (left right : Nat) : seconds (left + right) = seconds left + seconds right :=
  Nat.add_mul left right 1000

theorem seconds_floorSec_le (time : Nat) : seconds (floorSec time) ≤ time := by
  unfold seconds floorSec
  omega

theorem floorSec_lt_iff {time : Nat} {limit : Nat} : floorSec time < limit ↔
    time < seconds limit := by
  unfold floorSec seconds
  omega

/-- An exception of the framework: the status and the detail of the response. -/
structure HttpError where
  status : Nat
  detail : String
  deriving DecidableEq

/-- What a Postgres `integer` holds. -/
def fitsInt4 (value : Int) : Bool := -2147483648 ≤ value && value ≤ 2147483647

end Marketplace
