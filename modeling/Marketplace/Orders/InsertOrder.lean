import Marketplace.Lib.Double
import Marketplace.Numbers
import Marketplace.Orders.CreateIdempotent

/-!
# The loop of `insertOrderWithEvent`

The sum over the items is made of doubles. As long as no amount is negative, a sum that the
`integer` column can hold has not been rounded on the way.
-/

namespace Marketplace.Orders

/-- The variables of the loop. -/
structure Cart where
  items : List OrderItem
  totalCents : Int
  currency : String
  deriving DecidableEq

namespace Cart

def empty : Cart := ⟨[], 0, "UAH"⟩

/-- One turn, with the product it has found. -/
def add (cart : Cart) (item : OrderItemDto) (product : Product) : Cart where
  items := cart.items ++ [⟨product.id, item.quantity, product.priceCents⟩]
  totalCents := Double.add cart.totalCents (Double.mul product.priceCents item.quantity)
  currency := product.currency

/-- What the `integer` columns of `orders` and `order_items` can hold. -/
def fits (cart : Cart) : Bool :=
  fitsInt4 cart.totalCents &&
    cart.items.all fun item => fitsInt4 item.quantity && fitsInt4 item.priceAtPurchaseCents

end Cart

/-- The sum of the amounts of the items. -/
def sumOf (items : List OrderItem) : Int :=
  (items.map fun item => item.priceAtPurchaseCents * item.quantity).sum

theorem sumOf_append (left right : List OrderItem) :
    sumOf (left ++ right) = sumOf left + sumOf right := by
  rw [sumOf, List.map_append, List.sum_append]
  rfl

theorem sumOf_singleton (item : OrderItem) :
    sumOf [item] = item.priceAtPurchaseCents * item.quantity :=
  Int.add_zero _

/-- The double follows the sum. -/
structure Cart.Exact (cart : Cart) : Prop where
  tracks : Double.Tracks (sumOf cart.items) cart.totalCents
  nonneg : 0 ≤ sumOf cart.items

theorem Cart.exact_empty : Cart.empty.Exact := ⟨⟨fun _ => rfl, fun hlarge => hlarge⟩, Int.le_refl 0⟩

theorem Cart.Exact.add {cart : Cart} {item : OrderItemDto} {product : Product} (hexact : cart.Exact)
    (hprice : 0 ≤ product.priceCents) (hquantity : 0 ≤ item.quantity) :
    (cart.add item product).Exact := by
  have hamount : 0 ≤ product.priceCents * item.quantity := Int.mul_nonneg hprice hquantity
  have hsum : sumOf (cart.add item product).items =
      sumOf cart.items + product.priceCents * item.quantity := by
    rw [Cart.add, sumOf_append, sumOf_singleton]
  constructor
  · rw [hsum]
    exact hexact.tracks.add (Double.tracks_round hamount) hexact.nonneg hamount
  · rw [hsum]
    exact Int.add_nonneg hexact.nonneg hamount

theorem lt_exactBound {value : Int} (hfits : fitsInt4 value = true) :
    value < Double.exactBound := by
  simp only [fitsInt4, Bool.and_eq_true, decide_eq_true_eq] at hfits
  have hbound : Double.exactBound = 9007199254740992 := rfl
  omega

theorem Cart.Exact.total_eq {cart : Cart} (hexact : cart.Exact)
    (hfits : fitsInt4 cart.totalCents = true) :
    cart.totalCents = sumOf cart.items :=
  hexact.tracks.eq_of_lt (lt_exactBound hfits)

/-- The check of the column is the check of the exact value. -/
theorem fitsInt4_of_tracks {value double : Int} (htracks : Double.Tracks value double) :
    fitsInt4 double = fitsInt4 value := by
  by_cases hsmall : value < Double.exactBound
  · rw [htracks.exact hsmall]
  · have hvalue : fitsInt4 value = false :=
      Bool.eq_false_iff.mpr fun hfits => hsmall (lt_exactBound hfits)
    have hdouble : fitsInt4 double = false := by
      rw [Bool.eq_false_iff]
      intro hfits
      have hlarge := htracks.large (Int.not_lt.mp hsmall)
      exact absurd (lt_exactBound hfits) (Int.not_lt.mpr hlarge)
    rw [hvalue, hdouble]

end Marketplace.Orders
