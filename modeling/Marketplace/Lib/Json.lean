import Mathlib.Data.List.Basic
import Mathlib.Data.List.TakeWhile

/-!
# JSON texts

`JSON.stringify` without indentation and `JSON.parse`. A number is kept as its text and an object as
its list of members; a surrogate that is alone in its string is no character and is read as the
replacement character, which is what it turns into in UTF-8.
-/

namespace JsonNumber

def isDigit (char : Char) : Bool := '0' ≤ char && char ≤ '9'

/-- The characters that a number is made of. -/
def isPart (char : Char) : Bool :=
  isDigit char || char = '-' || char = '+' || char = '.' || char = 'e' || char = 'E'

def isDigits (text : List Char) : Bool := !text.isEmpty && text.all isDigit

def isSignedDigits : List Char → Bool
  | '+' :: rest => isDigits rest
  | '-' :: rest => isDigits rest
  | text => isDigits text

def isExponent : List Char → Bool
  | [] => true
  | 'e' :: rest => isSignedDigits rest
  | 'E' :: rest => isSignedDigits rest
  | _ => false

def isFraction : List Char → Bool
  | '.' :: rest =>
      isDigits (rest.takeWhile isDigit) && isExponent (rest.dropWhile isDigit)
  | text => isExponent text

/-- A zero stands alone before the fraction. -/
def isUnsigned (text : List Char) : Bool :=
  let whole := text.takeWhile isDigit
  isDigits whole && (whole = ['0'] || whole.head? ≠ some '0') &&
    isFraction (text.dropWhile isDigit)

def isNumber (text : List Char) : Bool :=
  !text.isEmpty && text.all isPart &&
    match text with
    | '-' :: rest => isUnsigned rest
    | text => isUnsigned text

theorem isDigit_of_mem_toDigits {value : Nat} {char : Char} (hmem : char ∈ Nat.toDigits 10 value) :
    isDigit char = true :=
  Nat.isDigit_of_mem_toDigits (by omega) (by omega) hmem

/-- Only zero is written with a leading zero. -/
theorem head_toDigits {value : Nat} (hhead : (Nat.toDigits 10 value).head? = some '0') :
    Nat.toDigits 10 value = ['0'] := by
  induction value using Nat.strongRecOn with
  | ind value ih =>
      rcases Nat.lt_or_ge value 10 with hlt | hge
      · rw [Nat.toDigits_of_lt_base hlt] at hhead ⊢
        exact congrArg (fun char => [char]) (Option.some.inj hhead)
      · rw [Nat.toDigits_of_base_le (by omega) hge,
          List.head?_append_of_ne_nil _ Nat.toDigits_ne_nil]
          at hhead
        have hquotient := ih (value / 10) (by omega) hhead
        have hvalue := congrArg (fun digits => Nat.ofDigitChars 10 digits 0) hquotient
        simp only [Nat.ofDigitChars_ten_toDigits] at hvalue
        have hzero : Nat.ofDigitChars 10 ['0'] 0 = 0 := by decide
        omega

theorem isUnsigned_toDigits (value : Nat) : isUnsigned (Nat.toDigits 10 value) = true := by
  have hall : ∀ char ∈ Nat.toDigits 10 value, isDigit char = true :=
    fun _ hmem => isDigit_of_mem_toDigits hmem
  have hne : Nat.toDigits 10 value ≠ [] := Nat.toDigits_ne_nil
  have hhead := @head_toDigits value
  generalize Nat.toDigits 10 value = digits at hall hne hhead
  have hwhole : digits.takeWhile isDigit = digits := List.takeWhile_eq_self_iff.mpr hall
  have hrest : digits.dropWhile isDigit = [] := List.dropWhile_eq_nil_iff.mpr hall
  unfold isUnsigned
  rw [hwhole, hrest]
  have hdigits : isDigits digits = true := by
    simp [isDigits, hne, List.all_eq_true.mpr hall]
  have hzero : (digits = ['0'] || digits.head? ≠ some '0') = true := by
    by_cases hstart : digits.head? = some '0'
    · simp [hhead hstart]
    · simp [hstart]
  simp only [hdigits, hzero, Bool.true_and]
  rfl

theorem all_isPart_toDigits (value : Nat) : (Nat.toDigits 10 value).all isPart = true := by
  rw [List.all_eq_true]
  intro char hmem
  simp [isPart, isDigit_of_mem_toDigits hmem]

/-- What `JSON.stringify` writes for an integer that is not negative. -/
theorem isNumber_toDigits (value : Nat) : isNumber (Nat.toDigits 10 value) = true := by
  have hunsigned := isUnsigned_toDigits value
  have hparts := all_isPart_toDigits value
  have hne : Nat.toDigits 10 value ≠ [] := Nat.toDigits_ne_nil
  have hdash : '-' ∉ Nat.toDigits 10 value := by
    intro hmem
    have hdigit := isDigit_of_mem_toDigits hmem
    revert hdigit
    decide
  generalize Nat.toDigits 10 value = digits at hunsigned hparts hne hdash
  unfold isNumber
  rw [hparts]
  cases digits with
  | nil => exact absurd rfl hne
  | cons char rest =>
      simp only [List.isEmpty_cons, Bool.not_false, Bool.true_and]
      split
      · rename_i heq
        exact absurd ((List.cons.inj heq).1 ▸ List.mem_cons_self) hdash
      · exact hunsigned

/-- And for a negative one. -/
theorem isNumber_neg_toDigits (value : Nat) : isNumber ('-' :: Nat.toDigits 10 value) = true := by
  have hdash : isPart '-' = true := rfl
  simp only [isNumber, List.isEmpty_cons, Bool.not_false, List.all_cons, hdash,
    all_isPart_toDigits value, Bool.true_and, isUnsigned_toDigits value]

end JsonNumber

abbrev JsonNumber := { text : List Char // JsonNumber.isNumber text = true }

def JsonNumber.ofNat (value : Nat) : JsonNumber := ⟨Nat.toDigits 10 value, isNumber_toDigits value⟩

inductive Json where
  | null
  | bool (value : Bool)
  | number (literal : JsonNumber)
  | string (text : List Char)
  | array (items : List Json)
  | object (members : List (List Char × Json))

namespace Json

/-! ### Strings -/

/-- The UTF-16 code units of a character. -/
def unitsOf (char : Char) : List Nat :=
  let code := char.toNat
  if code < 0x10000 then [code]
  else [0xD800 + (code - 0x10000) / 1024, 0xDC00 + (code - 0x10000) % 1024]

def replacement : Char := Char.ofNat 0xFFFD

def isSurrogate (unit : Nat) : Bool := 0xD800 ≤ unit && unit < 0xE000

def ofUnits : List Nat → List Char
  | [] => []
  | [unit] => [if isSurrogate unit then replacement else Char.ofNat unit]
  | high :: low :: rest =>
      if (0xD800 ≤ high ∧ high < 0xDC00) ∧ 0xDC00 ≤ low ∧ low < 0xE000 then
        Char.ofNat (0x10000 + (high - 0xD800) * 1024 + (low - 0xDC00)) :: ofUnits rest
      else
        (if isSurrogate high then replacement else Char.ofNat high) :: ofUnits (low :: rest)

def hexDigit (value : Nat) : Char :=
  if value < 10 then Char.ofNat (48 + value) else Char.ofNat (87 + value)

def ofHexDigit (char : Char) : Option Nat :=
  let code := char.toNat
  if 48 ≤ code ∧ code < 58 then some (code - 48)
  else if 97 ≤ code ∧ code < 103 then some (code - 87)
  else if 65 ≤ code ∧ code < 71 then some (code - 55)
  else none

def escapeChar (char : Char) : List Char :=
  let code := char.toNat
  if code = 34 then ['\\', '"']
  else if code = 92 then ['\\', '\\']
  else if code = 8 then ['\\', 'b']
  else if code = 9 then ['\\', 't']
  else if code = 10 then ['\\', 'n']
  else if code = 12 then ['\\', 'f']
  else if code = 13 then ['\\', 'r']
  else if code < 32 then ['\\', 'u', '0', '0', hexDigit (code / 16), hexDigit (code % 16)]
  else [char]

def quote (text : List Char) : List Char := '"' :: (text.flatMap escapeChar ++ ['"'])

/-- The unit that a character after a backslash stands for. -/
def unescape (char : Char) : Option Nat :=
  if char = '"' then some 34
  else if char = '\\' then some 92
  else if char = '/' then some 47
  else if char = 'b' then some 8
  else if char = 't' then some 9
  else if char = 'n' then some 10
  else if char = 'f' then some 12
  else if char = 'r' then some 13
  else none

def hexUnit (first second third fourth : Char) : Option Nat :=
  (ofHexDigit first).bind fun first => (ofHexDigit second).bind fun second =>
    (ofHexDigit third).bind fun third => (ofHexDigit fourth).map fun fourth =>
      ((first * 16 + second) * 16 + third) * 16 + fourth

/-- The units of a string up to its closing quote, and what follows it. -/
def readUnits : List Char → Option (List Nat × List Char)
  | [] => none
  | first :: rest =>
      if first = '"' then some ([], rest)
      else if first = '\\' then
        match rest with
        | [] => none
        | escape :: rest =>
            if escape = 'u' then
              match rest with
              | first :: second :: third :: fourth :: rest =>
                  (hexUnit first second third fourth).bind fun unit =>
                    (readUnits rest).map fun found => (unit :: found.1, found.2)
              | _ => none
            else
              (unescape escape).bind fun unit =>
                (readUnits rest).map fun found => (unit :: found.1, found.2)
      else if first.toNat < 32 then none
      else (readUnits rest).map fun found => (unitsOf first ++ found.1, found.2)

def readString (input : List Char) : Option (List Char × List Char) :=
  (readUnits input).map fun found => (ofUnits found.1, found.2)

/-! ### Values -/

mutual

def stringify : Json → List Char
  | null => ['n', 'u', 'l', 'l']
  | bool true => ['t', 'r', 'u', 'e']
  | bool false => ['f', 'a', 'l', 's', 'e']
  | number literal => literal.val
  | string text => quote text
  | array [] => ['[', ']']
  | array (first :: rest) => '[' :: (stringify first ++ stringifyItems rest)
  | object [] => ['{', '}']
  | object ((key, value) :: rest) =>
      '{' :: (quote key ++ ':' :: (stringify value ++ stringifyMembers rest))

def stringifyItems : List Json → List Char
  | [] => [']']
  | item :: rest => ',' :: (stringify item ++ stringifyItems rest)

def stringifyMembers : List (List Char × Json) → List Char
  | [] => ['}']
  | (key, value) :: rest => ',' :: (quote key ++ ':' :: (stringify value ++ stringifyMembers rest))

end

def isSpace (char : Char) : Bool := char = ' ' || char = '\t' || char = '\n' || char = '\r'

def skip (input : List Char) : List Char := input.dropWhile isSpace

def readWord (word : List Char) (value : Json) (input : List Char) : Option (Json × List Char) :=
  if word.isPrefixOf input then some (value, input.drop word.length) else none

def readNumber (input : List Char) : Option (Json × List Char) :=
  if hnumber : JsonNumber.isNumber (input.takeWhile JsonNumber.isPart) = true then
    some (number ⟨input.takeWhile JsonNumber.isPart, hnumber⟩, input.dropWhile JsonNumber.isPart)
  else none

/-- A key and its colon. -/
def readKey (input : List Char) : Option (List Char × List Char) :=
  match skip input with
  | '"' :: rest =>
      (readString rest).bind fun key =>
        match skip key.2 with
        | ':' :: rest => some (key.1, rest)
        | _ => none
  | _ => none

mutual

def readValue : Nat → List Char → Option (Json × List Char)
  | 0, _ => none
  | fuel + 1, input =>
      match skip input with
      | [] => none
      | first :: rest =>
          if first = '"' then (readString rest).map fun found => (string found.1, found.2)
          else if first = '[' then
            if (skip rest).head? = some ']' then some (array [], (skip rest).tail)
            else
              (readValue fuel rest).bind fun item =>
                (readItems fuel item.2).map fun items => (array (item.1 :: items.1), items.2)
          else if first = '{' then
            if (skip rest).head? = some '}' then some (object [], (skip rest).tail)
            else
              (readKey rest).bind fun key =>
                (readValue fuel key.2).bind fun value =>
                  (readMembers fuel value.2).map fun members =>
                    (object ((key.1, value.1) :: members.1), members.2)
          else if first = 'n' then readWord ['u', 'l', 'l'] null rest
          else if first = 't' then readWord ['r', 'u', 'e'] (bool true) rest
          else if first = 'f' then readWord ['a', 'l', 's', 'e'] (bool false) rest
          else readNumber (first :: rest)

/-- The items after the first one, and the closing bracket. -/
def readItems : Nat → List Char → Option (List Json × List Char)
  | 0, _ => none
  | fuel + 1, input =>
      match skip input with
      | ']' :: rest => some ([], rest)
      | ',' :: rest =>
          (readValue fuel rest).bind fun item =>
            (readItems fuel item.2).map fun items => (item.1 :: items.1, items.2)
      | _ => none

/-- The members after the first one, and the closing brace. -/
def readMembers : Nat → List Char → Option (List (List Char × Json) × List Char)
  | 0, _ => none
  | fuel + 1, input =>
      match skip input with
      | '}' :: rest => some ([], rest)
      | ',' :: rest =>
          (readKey rest).bind fun key =>
            (readValue fuel key.2).bind fun value =>
              (readMembers fuel value.2).map fun members =>
                ((key.1, value.1) :: members.1, members.2)
      | _ => none

end

/-- `JSON.parse`; `none` is a `SyntaxError`. -/
def parse (input : List Char) : Option Json :=
  (readValue (input.length + 1) input).bind fun found =>
    if skip found.2 = [] then some found.1 else none

/-! ### Reading back what was written -/

theorem hexUnit_hexDigit {code : Nat} (hcode : code < 32) :
    hexUnit '0' '0' (hexDigit (code / 16)) (hexDigit (code % 16)) = some code := by
  revert code
  decide

theorem ofNat_toNat {char : Char} {code : Nat} (hcode : char.toNat = code) :
    Char.ofNat code = char := by
  rw [← hcode, Char.ofNat_toNat]

theorem readUnits_escape {escape : Char} {unit : Nat} (hunescape : unescape escape = some unit)
    (hescape : escape ≠ 'u') (rest : List Char) :
    readUnits ('\\' :: escape :: rest) =
      (readUnits rest).map fun found => (unit :: found.1, found.2) := by
  rw [readUnits.eq_def]
  dsimp only
  rw [if_neg (by decide), if_pos rfl, if_neg hescape, hunescape, Option.bind_some]

theorem readUnits_hex {code : Nat} (hcode : code < 32) (rest : List Char) :
    readUnits ('\\' :: 'u' :: '0' :: '0' :: hexDigit (code / 16) :: hexDigit (code % 16) :: rest) =
      (readUnits rest).map fun found => (code :: found.1, found.2) := by
  rw [readUnits.eq_def]
  dsimp only
  rw [if_neg (by decide), if_pos rfl, if_pos rfl, hexUnit_hexDigit hcode, Option.bind_some]

/-- One character, escaped or not. -/
theorem readUnits_escapeChar (char : Char) (rest : List Char) :
    readUnits (escapeChar char ++ rest) =
      (readUnits rest).map fun found => (unitsOf char ++ found.1, found.2) := by
  have hsingle : char.toNat < 0x10000 → unitsOf char = [char.toNat] := fun hlt => if_pos hlt
  unfold escapeChar
  dsimp only
  split_ifs with hquote hbackslash hbackspace htab hnewline hfeed hreturn hcontrol
  · rw [hsingle (by omega), hquote]
    exact readUnits_escape rfl (by decide) rest
  · rw [hsingle (by omega), hbackslash]
    exact readUnits_escape rfl (by decide) rest
  · rw [hsingle (by omega), hbackspace]
    exact readUnits_escape rfl (by decide) rest
  · rw [hsingle (by omega), htab]
    exact readUnits_escape rfl (by decide) rest
  · rw [hsingle (by omega), hnewline]
    exact readUnits_escape rfl (by decide) rest
  · rw [hsingle (by omega), hfeed]
    exact readUnits_escape rfl (by decide) rest
  · rw [hsingle (by omega), hreturn]
    exact readUnits_escape rfl (by decide) rest
  · rw [hsingle (by omega)]
    exact readUnits_hex hcontrol rest
  · rw [List.singleton_append, readUnits.eq_def]
    dsimp only
    rw [if_neg, if_neg, if_neg hcontrol]
    · rintro rfl
      exact hbackslash rfl
    · rintro rfl
      exact hquote rfl

theorem readUnits_quote (text rest : List Char) :
    readUnits (text.flatMap escapeChar ++ '"' :: rest) = some (text.flatMap unitsOf, rest) := by
  induction text with
  | nil =>
      rw [List.flatMap_nil, List.nil_append, readUnits.eq_def]
      exact if_pos rfl
  | cons first text ih =>
      rw [List.flatMap_cons, List.append_assoc, readUnits_escapeChar, ih, List.flatMap_cons]
      rfl

theorem ofUnits_unitsOf (char : Char) (units : List Nat) :
    ofUnits (unitsOf char ++ units) = char :: ofUnits units := by
  have hvalid : char.toNat < 0xD800 ∨ 0xDFFF < char.toNat ∧ char.toNat < 0x110000 := char.valid
  unfold unitsOf
  by_cases hlt : char.toNat < 0x10000
  · rw [if_pos hlt, List.singleton_append]
    have halone : isSurrogate char.toNat = false := by
      rw [isSurrogate, Bool.and_eq_false_iff, decide_eq_false_iff_not, decide_eq_false_iff_not]
      omega
    have hchar :
        (if isSurrogate char.toNat then replacement else Char.ofNat char.toNat) = char := by
      rw [halone, if_neg Bool.false_ne_true, Char.ofNat_toNat]
    cases units with
    | nil =>
        rw [ofUnits.eq_def, ofUnits.eq_def]
        exact congrArg (fun char => [char]) hchar
    | cons low rest =>
        rw [ofUnits.eq_def]
        exact (if_neg (by omega)).trans (congrArg (· :: ofUnits (low :: rest)) hchar)
  · have hcode : ∀ offset, offset = char.toNat - 0x10000 →
        ofUnits ((0xD800 + offset / 1024) :: (0xDC00 + offset % 1024) :: units) =
          char :: ofUnits units := by
      intro offset hoffset
      have hpair : (0xD800 ≤ 0xD800 + offset / 1024 ∧ 0xD800 + offset / 1024 < 0xDC00) ∧
          0xDC00 ≤ 0xDC00 + offset % 1024 ∧ 0xDC00 + offset % 1024 < 0xE000 := by omega
      rw [ofUnits.eq_def]
      exact (if_pos hpair).trans (congrArg (· :: ofUnits units) (ofNat_toNat (by omega)))
    rw [if_neg hlt]
    exact hcode _ rfl

theorem ofUnits_flatMap (text : List Char) : ofUnits (text.flatMap unitsOf) = text := by
  induction text with
  | nil => rfl
  | cons first rest ih => rw [List.flatMap_cons, ofUnits_unitsOf, ih]

theorem readString_quote (text rest : List Char) :
    readString (text.flatMap escapeChar ++ '"' :: rest) = some (text, rest) := by
  rw [readString, readUnits_quote, Option.map_some, ofUnits_flatMap]

theorem skip_of_not_space {first : Char} {rest : List Char} (hfirst : isSpace first = false) :
    skip (first :: rest) = first :: rest := by
  rw [skip, List.dropWhile_cons_of_neg]
  rw [hfirst]
  exact Bool.false_ne_true

theorem readKey_quote (key rest : List Char) :
    readKey (quote key ++ ':' :: rest) = some (key, rest) := by
  have hskip : skip (quote key ++ ':' :: rest) =
      '"' :: (key.flatMap escapeChar ++ '"' :: ':' :: rest) := by
    rw [quote, List.cons_append, skip_of_not_space rfl, List.append_assoc, List.singleton_append]
  rw [readKey, hskip]
  change (readString (key.flatMap escapeChar ++ '"' :: ':' :: rest)).bind _ = _
  rw [readString_quote]
  rfl

/-- What may follow a number: nothing that could be a part of it. -/
def Stops (rest : List Char) : Prop := rest.takeWhile JsonNumber.isPart = []

theorem readNumber_literal (literal : JsonNumber) {rest : List Char} (hrest : Stops rest) :
    readNumber (literal.val ++ rest) = some (number literal, rest) := by
  obtain ⟨text, hnumber⟩ := literal
  have hparts : ∀ char ∈ text, JsonNumber.isPart char = true := by
    simp only [JsonNumber.isNumber, Bool.and_eq_true] at hnumber
    exact List.all_eq_true.mp hnumber.1.2
  have htake : (text ++ rest).takeWhile JsonNumber.isPart = text := by
    rw [List.takeWhile_append_of_pos hparts, hrest, List.append_nil]
  have hdrop : (text ++ rest).dropWhile JsonNumber.isPart = rest := by
    rw [List.dropWhile_append_of_pos hparts]
    have hsplit := List.takeWhile_append_dropWhile (p := JsonNumber.isPart) (l := rest)
    rwa [hrest, List.nil_append] at hsplit
  unfold readNumber
  simp only [htake, hdrop]
  exact dif_pos hnumber

/-- A part of a number is not the beginning of anything else. -/
theorem isPart_spec {char : Char} (hpart : JsonNumber.isPart char = true) :
    isSpace char = false ∧ char ≠ ']' ∧ char ≠ '"' ∧ char ≠ '[' ∧ char ≠ '{' ∧ char ≠ 'n' ∧
      char ≠ 't' ∧ char ≠ 'f' := by
  have hnot : ∀ other, JsonNumber.isPart other = false → char ≠ other := by
    rintro other hother rfl
    rw [hother] at hpart
    cases hpart
  refine ⟨?_, hnot _ rfl, hnot _ rfl, hnot _ rfl, hnot _ rfl, hnot _ rfl, hnot _ rfl, hnot _ rfl⟩
  unfold isSpace
  simp only [Bool.or_eq_false_iff, decide_eq_false_iff_not]
  exact ⟨⟨⟨hnot _ rfl, hnot _ rfl⟩, hnot _ rfl⟩, hnot _ rfl⟩

theorem literal_head (literal : JsonNumber) :
    ∃ first rest, literal.val = first :: rest ∧ JsonNumber.isPart first = true := by
  obtain ⟨text, hnumber⟩ := literal
  cases text with
  | nil => cases hnumber
  | cons first rest =>
      simp only [JsonNumber.isNumber, Bool.and_eq_true] at hnumber
      exact ⟨first, rest, rfl, List.all_eq_true.mp hnumber.1.2 first List.mem_cons_self⟩

theorem stops_items (items : List Json) (rest : List Char) :
    Stops (stringifyItems items ++ rest) := by
  cases items <;> rw [stringifyItems] <;> rfl

theorem stops_members (members : List (List Char × Json)) (rest : List Char) :
    Stops (stringifyMembers members ++ rest) := by
  cases members <;> rw [stringifyMembers] <;> rfl

/-- What a written value begins with. -/
theorem stringify_head (json : Json) :
    ∃ first rest, stringify json = first :: rest ∧ isSpace first = false ∧ first ≠ ']' := by
  cases json with
  | null => exact ⟨'n', ['u', 'l', 'l'], by rw [stringify], rfl, by decide⟩
  | bool value =>
      cases value with
      | true => exact ⟨'t', ['r', 'u', 'e'], by rw [stringify], rfl, by decide⟩
      | false => exact ⟨'f', ['a', 'l', 's', 'e'], by rw [stringify], rfl, by decide⟩
  | number literal =>
      obtain ⟨first, rest, htext, hpart⟩ := literal_head literal
      exact ⟨first, rest, by rw [stringify, htext], (isPart_spec hpart).1, (isPart_spec hpart).2.1⟩
  | string text =>
      exact ⟨'"', text.flatMap escapeChar ++ ['"'], by rw [stringify, quote], rfl, by decide⟩
  | array items =>
      cases items with
      | nil => exact ⟨'[', [']'], by rw [stringify], rfl, by decide⟩
      | cons item items => exact ⟨'[', _, by rw [stringify], rfl, by decide⟩
  | object members =>
      cases members with
      | nil => exact ⟨'{', ['}'], by rw [stringify], rfl, by decide⟩
      | cons member members => exact ⟨'{', _, by rw [stringify], rfl, by decide⟩

mutual

/-- Reading back a value; `rest` is what the surrounding array or object goes on with. -/
theorem readValue_stringify (json : Json) : ∀ fuel rest, (stringify json).length < fuel →
    Stops rest →
    readValue fuel (stringify json ++ rest) = some (json, rest) := by
  intro fuel rest hfuel hrest
  obtain ⟨fuel, rfl⟩ : ∃ less, fuel = less + 1 := ⟨fuel - 1, by omega⟩
  match json with
  | .null => rw [stringify]; rfl
  | .bool true => rw [stringify]; rfl
  | .bool false => rw [stringify]; rfl
  | .number literal =>
      obtain ⟨first, text, htext, hpart⟩ := literal_head literal
      have hnumber := readNumber_literal literal hrest
      obtain ⟨hspace, -, hquote, hbracket, hbrace, hn, ht, hf⟩ := isPart_spec hpart
      rw [htext, List.cons_append] at hnumber
      rw [stringify, htext, List.cons_append, readValue, skip_of_not_space hspace]
      dsimp only
      rw [if_neg hquote, if_neg hbracket, if_neg hbrace, if_neg hn, if_neg ht, if_neg hf, hnumber]
  | .string text =>
      rw [stringify, quote, List.cons_append, readValue, skip_of_not_space rfl, List.append_assoc,
        List.singleton_append]
      dsimp only
      rw [if_pos rfl, readString_quote, Option.map_some]
  | .array [] => rw [stringify]; rfl
  | .array (item :: items) =>
      rw [stringify, List.length_cons, List.length_append] at hfuel
      obtain ⟨first, text, htext, hspace, hbracket⟩ := stringify_head item
      have hskip : (skip (stringify item ++ (stringifyItems items ++ rest))).head? ≠ some ']' := by
        rw [htext, List.cons_append, skip_of_not_space hspace, List.head?_cons]
        exact fun heq => hbracket (Option.some.inj heq)
      rw [stringify, List.cons_append, readValue, skip_of_not_space rfl, List.append_assoc]
      dsimp only
      rw [if_neg (by decide), if_pos rfl, if_neg hskip,
        readValue_stringify item fuel _ (by omega) (stops_items items rest), Option.bind_some,
        readItems_stringify items fuel rest (by omega), Option.map_some]
  | .object [] => rw [stringify]; rfl
  | .object ((key, value) :: members) =>
      rw [stringify, List.length_cons, List.length_append, List.length_cons,
        List.length_append] at hfuel
      have htail : (quote key ++ ':' :: (stringify value ++ stringifyMembers members)) ++ rest =
          quote key ++ ':' :: (stringify value ++ (stringifyMembers members ++ rest)) := by
        rw [List.append_assoc, List.cons_append, List.append_assoc]
      have hskip : (skip (quote key ++ ':' :: (stringify value ++
          (stringifyMembers members ++ rest)))).head? ≠ some '}' := by
        rw [quote, List.cons_append, skip_of_not_space rfl, List.head?_cons]
        decide
      rw [stringify, List.cons_append, readValue, skip_of_not_space rfl, htail]
      dsimp only
      rw [if_neg (by decide), if_neg (by decide), if_pos rfl, if_neg hskip, readKey_quote,
        Option.bind_some, readValue_stringify value fuel _ (by omega) (stops_members members rest),
        Option.bind_some, readMembers_stringify members fuel rest (by omega), Option.map_some]

theorem readItems_stringify (items : List Json) : ∀ fuel rest,
    (stringifyItems items).length < fuel →
    readItems fuel (stringifyItems items ++ rest) = some (items, rest) := by
  intro fuel rest hfuel
  obtain ⟨fuel, rfl⟩ : ∃ less, fuel = less + 1 := ⟨fuel - 1, by omega⟩
  match items with
  | [] => rw [stringifyItems]; rfl
  | item :: items =>
      rw [stringifyItems, List.length_cons, List.length_append] at hfuel
      rw [stringifyItems, List.cons_append, readItems, skip_of_not_space rfl, List.append_assoc]
      change (readValue fuel (stringify item ++ (stringifyItems items ++ rest))).bind _ = _
      rw [readValue_stringify item fuel _ (by omega) (stops_items items rest), Option.bind_some,
        readItems_stringify items fuel rest (by omega), Option.map_some]

theorem readMembers_stringify (members : List (List Char × Json)) : ∀ fuel rest,
    (stringifyMembers members).length < fuel →
    readMembers fuel (stringifyMembers members ++ rest) = some (members, rest) := by
  intro fuel rest hfuel
  obtain ⟨fuel, rfl⟩ : ∃ less, fuel = less + 1 := ⟨fuel - 1, by omega⟩
  match members with
  | [] => rw [stringifyMembers]; rfl
  | (key, value) :: members =>
      rw [stringifyMembers, List.length_cons, List.length_append, List.length_cons,
        List.length_append] at hfuel
      have htail : (quote key ++ ':' :: (stringify value ++ stringifyMembers members)) ++ rest =
          quote key ++ ':' :: (stringify value ++ (stringifyMembers members ++ rest)) := by
        rw [List.append_assoc, List.cons_append, List.append_assoc]
      rw [stringifyMembers, List.cons_append, readMembers, skip_of_not_space rfl, htail]
      change (readKey (quote key ++ ':' :: (stringify value ++
        (stringifyMembers members ++ rest)))).bind _ = _
      rw [readKey_quote, Option.bind_some,
        readValue_stringify value fuel _ (by omega) (stops_members members rest), Option.bind_some,
        readMembers_stringify members fuel rest (by omega), Option.map_some]

end

/-- `JSON.parse` undoes `JSON.stringify`. -/
theorem parse_stringify (json : Json) : parse (stringify json) = some json := by
  have hread := readValue_stringify json ((stringify json).length + 1) [] (Nat.lt_succ_self _) rfl
  rw [List.append_nil] at hread
  rw [parse, hread]
  rfl

theorem stringify_injective : Function.Injective stringify := by
  intro left right heq
  have hparse := parse_stringify left
  rw [heq, parse_stringify] at hparse
  exact (Option.some.inj hparse).symm

instance : DecidableEq Json := fun _ _ => decidable_of_iff _ stringify_injective.eq_iff

/-- `value?.[key]`, for a key that no prototype has: of two members with one key the last one
counts. -/
def get (key : List Char) : Json → Option Json
  | object members => (members.reverse.find? fun member => member.1 = key).map Prod.snd
  | _ => none

def asString : Json → Option (List Char)
  | string text => some text
  | _ => none

/-! ### What is written has no line breaks -/

/-- Without control characters. -/
def Printable (text : List Char) : Prop := ∀ char ∈ text, 32 ≤ char.toNat

theorem printable_append {left right : List Char} :
    Printable (left ++ right) ↔ Printable left ∧ Printable right :=
  List.forall_mem_append

theorem printable_cons {char : Char} {rest : List Char} :
    Printable (char :: rest) ↔ 32 ≤ char.toNat ∧ Printable rest :=
  List.forall_mem_cons

theorem printable_nil : Printable [] := fun _ hchar => absurd hchar List.not_mem_nil

theorem printable_escapeChar (char : Char) : Printable (escapeChar char) := by
  have hhex : ∀ value < 16, 32 ≤ (hexDigit value).toNat := by decide
  unfold escapeChar
  by_cases hcontrol : char.toNat < 32
  · have hfirst := hhex (char.toNat / 16) (by omega)
    have hsecond := hhex (char.toNat % 16) (by omega)
    dsimp only
    split_ifs <;> simp [printable_cons, printable_nil, hfirst, hsecond]
  · have hplain : 32 ≤ char.toNat := by omega
    dsimp only
    split_ifs <;> simp [printable_cons, printable_nil, hplain]

theorem printable_quote (text : List Char) : Printable (quote text) := by
  have hinside : Printable (text.flatMap escapeChar) := by
    intro other hother
    obtain ⟨char, -, hchar⟩ := List.mem_flatMap.mp hother
    exact printable_escapeChar char other hchar
  simp [quote, printable_cons, printable_append, printable_nil, hinside]

theorem le_code_of_isDigit {char : Char} (hdigit : JsonNumber.isDigit char = true) :
    32 ≤ char.toNat := by
  simp only [JsonNumber.isDigit, Bool.and_eq_true, decide_eq_true_eq] at hdigit
  have hlow : '0'.toNat ≤ char.toNat := hdigit.1
  exact Nat.le_trans (by decide) hlow

theorem printable_literal (literal : JsonNumber) : Printable literal.val := by
  obtain ⟨text, hnumber⟩ := literal
  simp only [JsonNumber.isNumber, Bool.and_eq_true] at hnumber
  intro char hchar
  have hpart := List.all_eq_true.mp hnumber.1.2 char hchar
  simp only [JsonNumber.isPart, Bool.or_eq_true, decide_eq_true_eq] at hpart
  rcases hpart with ((((hdigit | rfl) | rfl) | rfl) | rfl) | rfl
  · exact le_code_of_isDigit hdigit
  all_goals decide

mutual

theorem printable_stringify (json : Json) : Printable (stringify json) := by
  match json with
  | .null => simp [stringify, printable_cons, printable_nil]
  | .bool true => simp [stringify, printable_cons, printable_nil]
  | .bool false => simp [stringify, printable_cons, printable_nil]
  | .number literal => simpa [stringify] using printable_literal literal
  | .string text => simpa [stringify] using printable_quote text
  | .array [] => simp [stringify, printable_cons, printable_nil]
  | .array (first :: rest) =>
      simp [stringify, printable_cons, printable_append, printable_stringify first,
        printable_stringifyItems rest]
  | .object [] => simp [stringify, printable_cons, printable_nil]
  | .object ((key, value) :: rest) =>
      simp [stringify, printable_cons, printable_append, printable_quote key,
        printable_stringify value, printable_stringifyMembers rest]

theorem printable_stringifyItems (items : List Json) : Printable (stringifyItems items) := by
  match items with
  | [] => simp [stringifyItems, printable_cons, printable_nil]
  | item :: rest =>
      simp [stringifyItems, printable_cons, printable_append, printable_stringify item,
        printable_stringifyItems rest]

theorem printable_stringifyMembers (members : List (List Char × Json)) :
    Printable (stringifyMembers members) := by
  match members with
  | [] => simp [stringifyMembers, printable_cons, printable_nil]
  | (key, value) :: rest =>
      simp [stringifyMembers, printable_cons, printable_append, printable_quote key,
        printable_stringify value, printable_stringifyMembers rest]

end

end Json
