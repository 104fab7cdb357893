import Marketplace.Checkout.Checkout

/-!
# Numbers made from texts

`Number(text)` is a parameter: what is used of it is that it reads back the decimal text of an
integer that a double holds exactly.
-/

namespace Marketplace

open Checkout (JsNumber)

def Checkout.JsNumber.isNaN (number : JsNumber) : Bool := number = .other ['N', 'a', 'N']

def Checkout.JsNumber.isInteger : JsNumber → Bool
  | .integer _ => true
  | .other _ => false

/-- What counts as false. A negative zero is zero. -/
def Checkout.JsNumber.isFalsy : JsNumber → Bool
  | .integer value => value = 0
  | .other text => text = ['N', 'a', 'N']

/-- An integer column compared with a parameter: Postgres takes a decimal integer in the range of
`integer` and fails the statement on anything else. -/
def Checkout.JsNumber.toInt4 : JsNumber → Option Int
  | .integer value => if fitsInt4 value then some value else none
  | .other _ => none

theorem Checkout.JsNumber.toInt4_eq_some {number : JsNumber} {value : Int} :
    number.toInt4 = some value ↔ number = .integer value ∧ fitsInt4 value = true := by
  cases number with
  | other text => simp [toInt4]
  | integer found =>
      by_cases hfits : fitsInt4 found = true
      · rw [toInt4, if_pos hfits]
        simp only [Option.some.injEq, JsNumber.integer.injEq]
        constructor
        · rintro rfl
          exact ⟨rfl, hfits⟩
        · exact And.left
      · rw [toInt4, if_neg hfits]
        simp only [JsNumber.integer.injEq, reduceCtorEq, false_iff, not_and]
        rintro rfl
        exact hfits

/-- `Number` reads back the integers in the range of `integer`. -/
def ReadsDecimals (number : Text → JsNumber) : Prop :=
  ∀ value, fitsInt4 value = true → number (decimal value) = .integer value

def readDigits (digits : Text) : Option Nat :=
  if digits.all Char.isDigit then some (Nat.ofDigitChars 10 digits 0) else none

/-- `Number` on decimal digits, with a sign or without. -/
def readDecimal (text : Text) : JsNumber :=
  let value := if text.head? = some '-' then (readDigits text.tail).map fun value => -(value : Int)
    else (readDigits text).map fun value => (value : Int)
  value.elim (.other ['N', 'a', 'N']) .integer

theorem readDigits_toDigits (value : Nat) : readDigits (Nat.toDigits 10 value) = some value := by
  have hall : (Nat.toDigits 10 value).all Char.isDigit = true :=
    List.all_eq_true.mpr fun _ hmem => Nat.isDigit_of_mem_toDigits (by omega) (by omega) hmem
  rw [readDigits, if_pos hall, Nat.ofDigitChars_ten_toDigits]

theorem readDecimal_decimal (value : Int) : readDecimal (decimal value) = .integer value := by
  cases value with
  | ofNat value =>
      have hsign : (Nat.toDigits 10 value).head? ≠ some '-' := fun hhead =>
        not_mem_toDigits (by decide) value (List.mem_of_head? hhead)
      rw [readDecimal, decimal, if_neg hsign, readDigits_toDigits]
      rfl
  | negSucc value =>
      have hsign : ('-' :: Nat.toDigits 10 (value + 1)).head? = some '-' := rfl
      rw [readDecimal, decimal, if_pos hsign, List.tail_cons, readDigits_toDigits]
      rfl

theorem readsDecimals_readDecimal : ReadsDecimals readDecimal :=
  fun value _ => readDecimal_decimal value

end Marketplace
