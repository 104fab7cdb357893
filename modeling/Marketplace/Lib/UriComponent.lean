import Marketplace.Lib.Utf8

/-!
# Percent-encoding

Text in the characters that a URI component may hold: any other character is written as the bytes of
its UTF-8, each as `%` and two hexadecimal digits. The decoder takes every character but `%` as it
stands and fails on an escape that is not the UTF-8 of one character.
-/

namespace UriComponent

open Base64 (Byte byte)

def unreserved (char : Char) : Bool := char.isAlphanum || "-_.!~*'()".toList.contains char

def hexDigit (value : Nat) : Char :=
  if value < 10 then Char.ofNat (48 + value) else Char.ofNat (55 + value)

/-- Both cases are read. -/
def hexValue (char : Char) : Option Nat :=
  if '0' ≤ char ∧ char ≤ '9' then some (char.toNat - 48)
  else if 'A' ≤ char ∧ char ≤ 'F' then some (char.toNat - 55)
  else if 'a' ≤ char ∧ char ≤ 'f' then some (char.toNat - 87)
  else none

def escapeByte (value : Byte) : List Char := ['%', hexDigit (value / 16), hexDigit (value % 16)]

def encodeChar (char : Char) : List Char :=
  if unreserved char then [char] else (Utf8.encodeChar char).flatMap escapeByte

def encode (text : List Char) : List Char := text.flatMap encodeChar

def readByte : List Char → Option (Byte × List Char)
  | '%' :: high :: low :: rest =>
      match hexValue high, hexValue low with
      | some high, some low => some (byte (high * 16 + low), rest)
      | _, _ => none
  | _ => none

def readBytes : Nat → List Char → Option (List Byte × List Char)
  | 0, text => some ([], text)
  | count + 1, text =>
      match readByte text with
      | none => none
      | some (first, rest) => (readBytes count rest).map fun (more, rest) => (first :: more, rest)

/-- How many bytes go with the first one, by its leading ones. -/
def countMore (first : Nat) : Option Nat :=
  if first < 0x80 then some 0
  else if first < 0xC0 then none
  else if first < 0xE0 then some 1
  else if first < 0xF0 then some 2
  else if first < 0xF8 then some 3
  else none

/-- The character with this UTF-8. -/
def toChar (first : Byte) (more : List Byte) : Option Char :=
  let char := (Utf8.readChar first more).1
  if Utf8.encodeChar char = first :: more then some char else none

def readEscape (text : List Char) : Option (Char × List Char) :=
  match readByte text with
  | none => none
  | some (first, rest) =>
      match countMore first with
      | none => none
      | some count =>
          match readBytes count rest with
          | none => none
          | some (more, rest) => (toChar first more).map fun char => (char, rest)

def decodeWithin : Nat → List Char → Option (List Char)
  | 0, _ => some []
  | _ + 1, [] => some []
  | fuel + 1, char :: rest =>
      if char = '%' then
        match readEscape (char :: rest) with
        | none => none
        | some (decoded, rest) => (decodeWithin fuel rest).map (decoded :: ·)
      else (decodeWithin fuel rest).map (char :: ·)

def decode (text : List Char) : Option (List Char) := decodeWithin text.length text

/-! ### What is well-formed -/

/-- The bytes, each as an escape. -/
inductive Escapes : List Byte → List Char → Prop
  | nil : Escapes [] []
  | cons {value : Byte} {high low : Char} {highValue lowValue : Nat} {bytes : List Byte}
      {text : List Char} (hhigh : hexValue high = some highValue)
      (hlow : hexValue low = some lowValue) (hvalue : byte (highValue * 16 + lowValue) = value)
      (hrest : Escapes bytes text) :
      Escapes (value :: bytes) ('%' :: high :: low :: text)

/-- The first text is a percent-encoding of the second. -/
inductive Encodes : List Char → List Char → Prop
  | nil : Encodes [] []
  | plain {char : Char} {text decoded : List Char} (hchar : char ≠ '%')
      (hrest : Encodes text decoded) : Encodes (char :: text) (char :: decoded)
  | escaped {char : Char} {escape text decoded : List Char}
      (hescape : Escapes (Utf8.encodeChar char) escape) (hrest : Encodes text decoded) :
      Encodes (escape ++ text) (char :: decoded)

def WellFormed (text : List Char) : Prop := ∃ decoded, Encodes text decoded

variable {text rest escape decoded : List Char} {bytes more : List Byte} {first value : Byte}
  {char : Char} {count : Nat}

/-! ### Escapes -/

theorem hexValue_hexDigit {value : Nat} (hlt : value < 16) :
    hexValue (hexDigit value) = some value := by
  have hall : ∀ value : Fin 16, hexValue (hexDigit value) = some value.val := by decide
  exact hall ⟨value, hlt⟩

theorem escapes_flatMap (bytes : List Byte) : Escapes bytes (bytes.flatMap escapeByte) := by
  induction bytes with
  | nil => exact .nil
  | cons value bytes ih =>
      have hlt := value.isLt
      rw [List.flatMap_cons]
      refine .cons (hexValue_hexDigit (by omega)) (hexValue_hexDigit (by omega)) ?_ ih
      exact Base64.byte_eq (by omega)

theorem readByte_eq_some :
    readByte text = some (value, rest) ↔ ∃ high low highValue lowValue,
      text = '%' :: high :: low :: rest ∧ hexValue high = some highValue ∧
        hexValue low = some lowValue ∧ byte (highValue * 16 + lowValue) = value := by
  constructor
  · intro hread
    unfold readByte at hread
    split at hread
    · rename_i high low rest'
      split at hread
      · rename_i highValue lowValue hhigh hlow
        cases hread
        exact ⟨high, low, highValue, lowValue, rfl, hhigh, hlow, rfl⟩
      · cases hread
    · cases hread
  · rintro ⟨high, low, highValue, lowValue, rfl, hhigh, hlow, rfl⟩
    rw [readByte, hhigh, hlow]

theorem readBytes_eq_some :
    readBytes count text = some (bytes, rest) ↔
      bytes.length = count ∧ ∃ escape, Escapes bytes escape ∧ text = escape ++ rest := by
  induction count generalizing text bytes with
  | zero =>
      simp only [readBytes, Option.some.injEq, Prod.mk.injEq, List.length_eq_zero_iff]
      constructor
      · rintro ⟨rfl, rfl⟩
        exact ⟨rfl, [], .nil, rfl⟩
      · rintro ⟨rfl, escape, hescape, rfl⟩
        cases hescape
        exact ⟨rfl, rfl⟩
  | succ count ih =>
      constructor
      · intro hread
        rw [readBytes] at hread
        split at hread
        · cases hread
        · rename_i first rest' hfirst
          obtain ⟨⟨more, rest''⟩, hmore, heq⟩ := Option.map_eq_some_iff.mp hread
          cases heq
          obtain ⟨high, low, highValue, lowValue, rfl, hhigh, hlow, hvalue⟩ :=
            readByte_eq_some.mp hfirst
          obtain ⟨rfl, escape, hescape, rfl⟩ := ih.mp hmore
          exact ⟨rfl, _, .cons hhigh hlow hvalue hescape, rfl⟩
      · rintro ⟨hlength, escape, hescape, rfl⟩
        cases hescape with
        | nil => cases hlength
        | cons hhigh hlow hvalue hrest =>
            rw [readBytes, List.cons_append, List.cons_append, List.cons_append,
              readByte_eq_some.mpr ⟨_, _, _, _, rfl, hhigh, hlow, hvalue⟩]
            simp only
            rw [ih.mpr ⟨Nat.succ.inj hlength, _, hrest, rfl⟩, Option.map_some]

/-! ### One character -/

theorem countMore_of_encodeChar (hbytes : Utf8.encodeChar char = first :: more) :
    countMore first = some more.length := by
  have hrange := Utf8.code_range char
  simp only [Utf8.encodeChar] at hbytes
  split at hbytes
  · cases hbytes
    rw [Utf8.val_byte (by omega), countMore, if_pos (by omega)]
    rfl
  · split at hbytes
    · cases hbytes
      rw [Utf8.val_byte (by omega), countMore, if_neg (by omega), if_neg (by omega),
        if_pos (by omega)]
      rfl
    · split at hbytes
      · cases hbytes
        rw [Utf8.val_byte (by omega), countMore, if_neg (by omega), if_neg (by omega),
          if_neg (by omega), if_pos (by omega)]
        rfl
      · cases hbytes
        rw [Utf8.val_byte (by omega), countMore, if_neg (by omega), if_neg (by omega),
          if_neg (by omega), if_neg (by omega), if_pos (by omega)]
        rfl

theorem toChar_eq_some : toChar first more = some char ↔ Utf8.encodeChar char = first :: more := by
  constructor
  · intro hchar
    simp only [toChar, Option.ite_none_right_eq_some, Option.some.injEq] at hchar
    obtain ⟨hbytes, rfl⟩ := hchar
    exact hbytes
  · intro hbytes
    obtain ⟨first', more', hbytes', hread⟩ := Utf8.readChar_encodeChar char []
    rw [hbytes] at hbytes'
    cases hbytes'
    rw [List.append_nil] at hread
    simp only [toChar, hread, hbytes, if_true]

theorem readEscape_eq_some :
    readEscape text = some (char, rest) ↔
      ∃ escape, Escapes (Utf8.encodeChar char) escape ∧ text = escape ++ rest := by
  constructor
  · intro hread
    rw [readEscape] at hread
    split at hread
    · cases hread
    · rename_i first afterFirst hfirst
      split at hread
      · cases hread
      · split at hread
        · cases hread
        · rename_i more afterMore hmore
          obtain ⟨decoded, hchar, heq⟩ := Option.map_eq_some_iff.mp hread
          cases heq
          obtain ⟨high, low, highValue, lowValue, rfl, hhigh, hlow, hvalue⟩ :=
            readByte_eq_some.mp hfirst
          obtain ⟨-, escape, hescape, rfl⟩ := readBytes_eq_some.mp hmore
          rw [toChar_eq_some.mp hchar]
          exact ⟨_, .cons hhigh hlow hvalue hescape, rfl⟩
  · rintro ⟨escape, hescape, rfl⟩
    cases hbytes : Utf8.encodeChar char with
    | nil =>
        obtain ⟨first, more, hcons, -⟩ := Utf8.readChar_encodeChar char []
        rw [hbytes] at hcons
        cases hcons
    | cons first more =>
        rw [hbytes] at hescape
        cases hescape with
        | cons hhigh hlow hvalue hrest =>
            rw [readEscape, List.cons_append, List.cons_append, List.cons_append,
              readByte_eq_some.mpr ⟨_, _, _, _, rfl, hhigh, hlow, hvalue⟩]
            simp only [countMore_of_encodeChar hbytes]
            rw [readBytes_eq_some.mpr ⟨rfl, _, hrest, rfl⟩]
            simp only [toChar_eq_some.mpr hbytes, Option.map_some]

/-! ### Whole texts -/

theorem Escapes.eq_cons (hescape : Escapes (Utf8.encodeChar char) escape) :
    ∃ tail, escape = '%' :: tail := by
  obtain ⟨first, more, hbytes, -⟩ := Utf8.readChar_encodeChar char []
  rw [hbytes] at hescape
  cases hescape with
  | cons => exact ⟨_, rfl⟩

theorem encodes_nil_iff : Encodes [] decoded ↔ decoded = [] := by
  constructor
  · intro hencodes
    generalize hempty : ([] : List Char) = text at hencodes
    cases hencodes with
    | nil => rfl
    | plain => cases hempty
    | escaped hescape =>
        obtain ⟨tail, rfl⟩ := hescape.eq_cons
        cases hempty
  · rintro rfl
    exact .nil

theorem encodes_plain_iff (hchar : char ≠ '%') :
    Encodes (char :: rest) decoded ↔ ∃ tail, Encodes rest tail ∧ decoded = char :: tail := by
  constructor
  · intro hencodes
    generalize hcons : char :: rest = text at hencodes
    cases hencodes with
    | nil => cases hcons
    | plain _ hrest =>
        cases hcons
        exact ⟨_, hrest, rfl⟩
    | escaped hescape =>
        obtain ⟨tail, rfl⟩ := hescape.eq_cons
        cases hcons
        exact absurd rfl hchar
  · rintro ⟨tail, hrest, rfl⟩
    exact .plain hchar hrest

theorem encodes_percent_iff :
    Encodes ('%' :: text) decoded ↔ ∃ char rest tail, readEscape ('%' :: text) = some (char, rest) ∧
      Encodes rest tail ∧ decoded = char :: tail := by
  constructor
  · intro hencodes
    generalize hcons : '%' :: text = whole at hencodes
    cases hencodes with
    | nil => cases hcons
    | plain hchar =>
        cases hcons
        exact absurd rfl hchar
    | escaped hescape hrest => exact ⟨_, _, _, readEscape_eq_some.mpr ⟨_, hescape, rfl⟩, hrest, rfl⟩
  · rintro ⟨char, rest, tail, hread, hrest, rfl⟩
    obtain ⟨escape, hescape, heq⟩ := readEscape_eq_some.mp hread
    rw [heq]
    exact .escaped hescape hrest

theorem length_of_readEscape (hread : readEscape text = some (char, rest)) :
    rest.length < text.length := by
  obtain ⟨escape, hescape, rfl⟩ := readEscape_eq_some.mp hread
  obtain ⟨tail, rfl⟩ := hescape.eq_cons
  rw [List.length_append, List.length_cons]
  omega

theorem decodeWithin_eq_some (fuel : Nat) (hfuel : text.length ≤ fuel) :
    decodeWithin fuel text = some decoded ↔ Encodes text decoded := by
  induction fuel generalizing text decoded with
  | zero =>
      rw [List.eq_nil_of_length_eq_zero (Nat.le_zero.mp hfuel), encodes_nil_iff, decodeWithin,
        Option.some.injEq, eq_comm]
  | succ fuel ih =>
      cases text with
      | nil => rw [encodes_nil_iff, decodeWithin, Option.some.injEq, eq_comm]
      | cons char rest =>
          by_cases hchar : char = '%'
          · subst hchar
            rw [encodes_percent_iff, decodeWithin, if_pos rfl]
            cases hread : readEscape ('%' :: rest) with
            | none => simp
            | some pair =>
                obtain ⟨char, rest'⟩ := pair
                have hlt := length_of_readEscape hread
                simp only [Option.map_eq_some_iff, Option.some.injEq, Prod.mk.injEq]
                constructor
                · rintro ⟨tail, htail, rfl⟩
                  exact ⟨char, rest', tail, ⟨rfl, rfl⟩, (ih (by omega)).mp htail, rfl⟩
                · rintro ⟨_, _, tail, ⟨rfl, rfl⟩, htail, rfl⟩
                  exact ⟨tail, (ih (by omega)).mpr htail, rfl⟩
          · rw [encodes_plain_iff hchar, decodeWithin, if_neg hchar]
            simp only [Option.map_eq_some_iff]
            rw [List.length_cons] at hfuel
            constructor
            · rintro ⟨tail, htail, rfl⟩
              exact ⟨tail, (ih (by omega)).mp htail, rfl⟩
            · rintro ⟨tail, htail, rfl⟩
              exact ⟨tail, (ih (by omega)).mpr htail, rfl⟩

theorem decode_eq_some : decode text = some decoded ↔ Encodes text decoded :=
  decodeWithin_eq_some text.length (Nat.le_refl _)

theorem encodes_encode (text : List Char) : Encodes (encode text) text := by
  induction text with
  | nil => exact .nil
  | cons char rest ih =>
      rw [encode, List.flatMap_cons, encodeChar]
      split
      · rename_i hplain
        apply Encodes.plain _ ih
        rintro rfl
        revert hplain
        decide
      · exact .escaped (escapes_flatMap _) ih

theorem unreserved_hexDigit {value : Nat} (hlt : value < 16) :
    unreserved (hexDigit value) = true := by
  have hall : ∀ value : Fin 16, unreserved (hexDigit value) = true := by decide
  exact hall ⟨value, hlt⟩

theorem unreserved_of_mem_encode (hmem : char ∈ encode text) : unreserved char = true ∨
    char = '%' := by
  obtain ⟨source, -, hsource⟩ := List.mem_flatMap.mp hmem
  rw [encodeChar] at hsource
  split at hsource
  · rename_i hplain
    rw [List.mem_singleton.mp hsource]
    exact .inl hplain
  · obtain ⟨value, -, hvalue⟩ := List.mem_flatMap.mp hsource
    have hlt := value.isLt
    simp only [escapeByte, List.mem_cons, List.not_mem_nil, or_false] at hvalue
    rcases hvalue with rfl | rfl | rfl
    · exact .inr rfl
    · exact .inl (unreserved_hexDigit (by omega))
    · exact .inl (unreserved_hexDigit (by omega))

/-- The unreserved characters are visible ASCII. -/
theorem range_of_unreserved (hchar : unreserved char = true) :
    0x21 ≤ char.toNat ∧ char.toNat ≤ 0x7E := by
  rw [unreserved, Bool.or_eq_true] at hchar
  rcases hchar with hchar | hmark
  · have hranges : char.isAlphanum = ((decide (char.val ≥ 'A'.val ∧ char.val ≤ 'Z'.val) ||
        (char.val ≥ 'a'.val && char.val ≤ 'z'.val)) ||
        (char.val ≥ '0'.val && char.val ≤ '9'.val)) := rfl
    simp only [hranges, Bool.or_eq_true, Bool.and_eq_true, decide_eq_true_eq,
      UInt32.le_iff_toNat_le, ge_iff_le] at hchar
    simp at hchar
    omega
  · have hall : ∀ mark ∈ "-_.!~*'()".toList, 0x21 ≤ mark.toNat ∧ mark.toNat ≤ 0x7E := by simp
    exact hall char (List.contains_iff_mem.mp hmark)

end UriComponent
