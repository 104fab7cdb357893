import Mathlib.Logic.Function.Basic

/-!
# Texts

Keys and identifiers that the program puts together from pieces. A text is a list of characters;
`decimal` is what a template string writes for an integer.
-/

namespace Marketplace

abbrev Text := List Char

instance : LawfulBEq Text := inferInstance

def decimal : Int → Text
  | .ofNat value => Nat.toDigits 10 value
  | .negSucc value => '-' :: Nat.toDigits 10 (value + 1)

theorem toDigits_injective : Function.Injective (Nat.toDigits 10) := by
  intro left right heq
  have hvalue := congrArg (fun digits => Nat.ofDigitChars 10 digits 0) heq
  simpa using hvalue

theorem not_mem_toDigits {char : Char} (hchar : char.isDigit = false) (value : Nat) :
    char ∉ Nat.toDigits 10 value := by
  intro hmem
  have hdigit := Nat.isDigit_of_mem_toDigits (by omega) (by omega) hmem
  rw [hchar] at hdigit
  cases hdigit

theorem colon_not_mem_decimal (value : Int) : ':' ∉ decimal value := by
  cases value with
  | ofNat value => exact not_mem_toDigits (by decide) value
  | negSucc value =>
      intro hmem
      rcases List.mem_cons.mp hmem with hdash | hmem
      · revert hdash
        decide
      · exact not_mem_toDigits (by decide) _ hmem

theorem decimal_injective : Function.Injective decimal := by
  intro left right heq
  cases left with
  | ofNat left =>
      cases right with
      | ofNat right => exact congrArg Int.ofNat (toDigits_injective heq)
      | negSucc right =>
          have hdash : '-' ∈ Nat.toDigits 10 left := by
            rw [show Nat.toDigits 10 left = _ from heq]
            exact List.mem_cons_self
          exact absurd hdash (not_mem_toDigits (by decide) left)
  | negSucc left =>
      cases right with
      | ofNat right =>
          have hdash : '-' ∈ Nat.toDigits 10 right := by
            rw [← show _ = Nat.toDigits 10 right from heq]
            exact List.mem_cons_self
          exact absurd hdash (not_mem_toDigits (by decide) right)
      | negSucc right =>
          have htail := toDigits_injective (List.cons.inj heq).2
          rw [Nat.succ.inj htail]

theorem decimal_nat_injective {left right : Nat} (heq : decimal left = decimal right) :
    left = right :=
  Int.ofNat.inj (decimal_injective heq)

/-- A text is split at its first separator in one way only. -/
theorem append_separator_injective {separator : Char} {left right rest rest' : Text}
    (hleft : separator ∉ left) (hright : separator ∉ right)
    (heq : left ++ separator :: rest = right ++ separator :: rest') :
    left = right ∧ rest = rest' := by
  induction left generalizing right with
  | nil =>
      cases right with
      | nil => exact ⟨rfl, (List.cons.inj heq).2⟩
      | cons char right =>
          have hhead : separator = char := (List.cons.inj heq).1
          exact absurd (hhead ▸ List.mem_cons_self) hright
  | cons char left ih =>
      cases right with
      | nil =>
          have hhead : char = separator := (List.cons.inj heq).1
          exact absurd (hhead ▸ List.mem_cons_self) hleft
      | cons char' right =>
          obtain ⟨hhead, htail⟩ := List.cons.inj heq
          obtain ⟨hfront, hrest⟩ := ih (fun hmem => hleft (List.mem_cons_of_mem _ hmem))
            (fun hmem => hright (List.mem_cons_of_mem _ hmem)) htail
          exact ⟨by rw [hhead, hfront], hrest⟩

end Marketplace
