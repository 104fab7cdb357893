import Mathlib.Data.List.DropRight
import Mathlib.Data.Nat.Digits.Defs

/-!
# Texts as JavaScript makes them

What the methods of its numbers, dates and strings give for natural numbers and for texts: digits,
dates, and what is left between the white space. Most of it is in visible characters of ASCII.
-/

namespace JsText

abbrev Text := List Char

/-! ### Numbers and dates -/

def padStart (width value : Nat) : Text :=
  let digits := Nat.toDigits 10 value
  List.replicate (width - digits.length) '0' ++ digits

/-- Year, month and day of a day since the first of January 1970. The years are counted from March
on, so that the day that may be missing is the last one. -/
def civil (day : Nat) : Nat × Nat × Nat :=
  let shifted := day + 719468
  let dayOfEra := shifted % 146097
  let yearOfEra := (dayOfEra - dayOfEra / 1460 + dayOfEra / 36524 - dayOfEra / 146096) / 365
  let dayOfYear := dayOfEra - (365 * yearOfEra + yearOfEra / 4 - yearOfEra / 100)
  let fromMarch := (5 * dayOfYear + 2) / 153
  let month := if fromMarch < 10 then fromMarch + 3 else fromMarch - 9
  (shifted / 146097 * 400 + yearOfEra + if month ≤ 2 then 1 else 0, month,
    dayOfYear - (153 * fromMarch + 2) / 5 + 1)

/-- After the year 9999 there are six digits and a sign. -/
def yearText (year : Nat) : Text := if year ≤ 9999 then padStart 4 year else '+' :: padStart 6 year

/-- `toISOString().slice(0, 10)`. -/
def isoDate (ms : Nat) : Text :=
  let (year, month, day) := civil (ms / 86400000)
  (yearText year ++ '-' :: padStart 2 month ++ '-' :: padStart 2 day).take 10

example : isoDate 1709164800000 = ['2', '0', '2', '4', '-', '0', '2', '-', '2', '9'] := by decide

def toISOString (ms : Nat) : Text :=
  let (year, month, day) := civil (ms / 86400000)
  let time := ms % 86400000
  yearText year ++ '-' :: padStart 2 month ++ '-' :: padStart 2 day ++
    'T' :: padStart 2 (time / 3600000) ++ ':' :: padStart 2 (time / 60000 % 60) ++
    ':' :: padStart 2 (time / 1000 % 60) ++ '.' :: padStart 3 (time % 1000) ++ ['Z']

example : toISOString 1709164801023 = "2024-02-29T00:00:01.023Z".toList := by decide

def digit36 (digit : Nat) : Char :=
  if digit < 10 then Char.ofNat (48 + digit) else Char.ofNat (87 + digit)

/-- `toString(36)`. -/
def toString36 (value : Nat) : Text :=
  if value = 0 then ['0'] else (Nat.digits 36 value).reverse.map digit36

/-! ### White space -/

/-- `WhiteSpace` and `LineTerminator`. -/
def isSpace (char : Char) : Bool :=
  char.toNat ∈ [0x9, 0xA, 0xB, 0xC, 0xD, 0x20, 0xA0, 0x1680, 0x2000, 0x2001, 0x2002, 0x2003, 0x2004,
    0x2005, 0x2006, 0x2007, 0x2008, 0x2009, 0x200A, 0x2028, 0x2029, 0x202F, 0x205F, 0x3000, 0xFEFF]

def trim (text : Text) : Text := (text.dropWhile isSpace).rdropWhile isSpace

/-! ### Visible characters -/

/-- Visible characters of ASCII, none of which is white space. -/
def Plain (text : Text) : Prop := ∀ char ∈ text, 0x20 < char.toNat ∧ char.toNat < 0x7F

instance (text : Text) : Decidable (Plain text) :=
  List.decidableBAll (fun char : Char => 0x20 < char.toNat ∧ char.toNat < 0x7F) text

theorem Plain.append {left right : Text} (hleft : Plain left) (hright : Plain right) :
    Plain (left ++ right) := by
  intro char hchar
  rcases List.mem_append.mp hchar with hmem | hmem
  · exact hleft char hmem
  · exact hright char hmem

theorem Plain.cons {char : Char} {text : Text} (hchar : Plain [char]) (htext : Plain text) :
    Plain (char :: text) :=
  hchar.append htext

theorem Plain.sublist {left right : Text} (hright : Plain right) (hsub : left.Sublist right) :
    Plain left :=
  fun char hchar => hright char (hsub.mem hchar)

theorem plain_toDigits (value : Nat) : Plain (Nat.toDigits 10 value) := by
  intro char hchar
  have hdigit := Nat.isDigit_of_mem_toDigits (by omega) (by omega) hchar
  simp only [Char.isDigit, Bool.and_eq_true, decide_eq_true_eq, UInt32.le_iff_toNat_le] at hdigit
  change 48 ≤ char.toNat ∧ char.toNat ≤ 57 at hdigit
  omega

theorem plain_padStart (width value : Nat) : Plain (padStart width value) := by
  apply Plain.append
  · intro char hchar
    rw [List.eq_of_mem_replicate hchar]
    decide
  · exact plain_toDigits value

theorem plain_yearText (year : Nat) : Plain (yearText year) := by
  have hplus : Plain ['+'] := by decide
  unfold yearText
  split
  · exact plain_padStart _ _
  · exact hplus.cons (plain_padStart _ _)

theorem plain_isoDate (ms : Nat) : Plain (isoDate ms) := by
  have hdash : Plain ['-'] := by decide
  unfold isoDate
  generalize civil (ms / 86400000) = date
  obtain ⟨year, month, day⟩ := date
  refine Plain.sublist ?_ (List.take_sublist _ _)
  have hmonth : Plain ('-' :: padStart 2 month) := hdash.cons (plain_padStart _ _)
  have hday : Plain ('-' :: padStart 2 day) := hdash.cons (plain_padStart _ _)
  exact ((plain_yearText year).append hmonth).append hday

theorem plain_digit36 (digit : Fin 36) : Plain [digit36 digit] := by
  revert digit
  decide

theorem plain_toString36 (value : Nat) : Plain (toString36 value) := by
  unfold toString36
  split
  · decide
  · intro char hchar
    obtain ⟨digit, hdigit, rfl⟩ := List.mem_map.mp hchar
    have hlt : digit < 36 := Nat.digits_lt_base (by omega) (List.mem_reverse.mp hdigit)
    exact plain_digit36 ⟨digit, hlt⟩ _ List.mem_cons_self

theorem isSpace_eq_false {char : Char} (hplain : 0x20 < char.toNat ∧ char.toNat < 0x7F) :
    isSpace char = false := by
  rw [isSpace, decide_eq_false_iff_not]
  simp only [List.mem_cons, List.not_mem_nil, or_false]
  omega

theorem dropWhile_isSpace {text : Text} (hsolid : ∀ char ∈ text, isSpace char = false) :
    text.dropWhile isSpace = text := by
  rw [List.dropWhile_eq_self_iff]
  intro hpos
  exact Bool.not_eq_true _ ▸ hsolid _ (List.getElem_mem hpos)

/-- White space goes from both ends, and nothing else does. -/
theorem trim_pad {left core right : Text} (hleft : ∀ char ∈ left, isSpace char = true)
    (hcore : ∀ char ∈ core, isSpace char = false) (hright : ∀ char ∈ right, isSpace char = true) :
    trim (left ++ (core ++ right)) = core := by
  have hend : (core ++ right).rdropWhile isSpace = core := by
    have hreverse : ∀ char ∈ core.reverse, isSpace char = false := by simpa using hcore
    rw [List.rdropWhile, List.reverse_append, List.dropWhile_append_of_pos (by simpa using hright),
      dropWhile_isSpace hreverse, List.reverse_reverse]
  rw [trim, List.dropWhile_append_of_pos hleft]
  cases core with
  | nil => rw [List.nil_append, List.dropWhile_eq_nil_iff.mpr hright, List.rdropWhile_nil]
  | cons first rest =>
      rw [List.cons_append, List.dropWhile_cons, hcore first List.mem_cons_self,
        if_neg Bool.false_ne_true]
      exact hend

theorem trim_of_plain {text : Text} (hplain : Plain text) : trim text = text := by
  have htrim : trim ([] ++ (text ++ [])) = text :=
    trim_pad (by simp) (fun char hmem => isSpace_eq_false (hplain char hmem)) (by simp)
  rwa [List.nil_append, List.append_nil] at htrim

end JsText
