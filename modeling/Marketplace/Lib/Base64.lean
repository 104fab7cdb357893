import Mathlib.Algebra.Order.Ring.Nat
import Mathlib.Data.List.Basic

/-!
# base64url and base64

Bytes as text in the URL alphabet without padding, or in the standard alphabet with it. The decoder
reads both alphabets up to the first padding and passes over every other character; of a UTF-16 code
unit it sees the low byte only. A sextet that is left alone at the end is dropped.
-/

namespace Base64

abbrev Byte := Fin 256

instance (priority := high) byteNeZero : NeZero 256 := ⟨by decide⟩

abbrev Sextet := Fin 64

def alphabet (sextet : Sextet) : Char :=
  if sextet.val < 26 then Char.ofNat (65 + sextet.val)
  else if sextet.val < 52 then Char.ofNat (71 + sextet.val)
  else if sextet.val < 62 then Char.ofNat (sextet.val - 4)
  else if sextet.val = 62 then '-' else '_'

def ofChar (char : Char) : Option Sextet :=
  if char = '+' then some 62
  else if char = '/' then some 63
  else (List.finRange 64).find? fun sextet => alphabet sextet = char

def sextet (value : Nat) : Sextet := Fin.ofNat 64 value

def byte (value : Nat) : Byte := Fin.ofNat 256 value

def toSextets : List Byte → List Sextet
  | first :: second :: third :: rest =>
      sextet (first / 4) :: sextet (first % 4 * 16 + second / 16) ::
        sextet (second % 16 * 4 + third / 64) :: sextet (third % 64) :: toSextets rest
  | [first, second] =>
      [sextet (first / 4), sextet (first % 4 * 16 + second / 16), sextet (second % 16 * 4)]
  | [first] => [sextet (first / 4), sextet (first % 4 * 16)]
  | [] => []

def ofSextets : List Sextet → List Byte
  | first :: second :: third :: fourth :: rest =>
      byte (first * 4 + second / 16) :: byte (second % 16 * 16 + third / 4) ::
        byte (third % 4 * 64 + fourth) :: ofSextets rest
  | [first, second, third] => [byte (first * 4 + second / 16), byte (second % 16 * 16 + third / 4)]
  | [first, second] => [byte (first * 4 + second / 16)]
  | _ => []

def encode (bytes : List Byte) : List Char := (toSextets bytes).map alphabet

def standardAlphabet (sextet : Sextet) : Char :=
  if sextet.val = 62 then '+' else if sextet.val = 63 then '/' else alphabet sextet

def encodeStandard (bytes : List Byte) : List Char :=
  (toSextets bytes).map standardAlphabet ++ List.replicate ((3 - bytes.length % 3) % 3) '='

/-- The characters for which the low bytes of the UTF-16 code units stand. -/
def lowBytes (char : Char) : List Char :=
  if char.toNat < 0x10000 then [Char.ofNat (char.toNat % 256)]
  else [Char.ofNat ((char.toNat - 0x10000) / 1024 % 256), Char.ofNat ((char.toNat - 0x10000) % 256)]

/-- What is in front of the first padding. -/
def unpadded (text : List Char) : List Char :=
  (text.flatMap lowBytes).takeWhile fun char => char ≠ '='

def decode (text : List Char) : List Byte := ofSextets ((unpadded text).filterMap ofChar)

theorem ofChar_alphabet (value : Sextet) : ofChar (alphabet value) = some value := by
  revert value
  decide +kernel

theorem ofChar_standardAlphabet (value : Sextet) :
    ofChar (standardAlphabet value) = some value := by
  revert value
  decide +kernel

theorem byte_eq {value : Nat} {expected : Byte} (heq : value = expected) :
    byte value = expected := by
  apply Fin.ext
  rw [byte, Fin.val_ofNat, heq]
  exact Nat.mod_eq_of_lt expected.isLt

theorem val_sextet {value : Nat} (hlt : value < 64) : (sextet value : Nat) = value := by
  rw [sextet, Fin.val_ofNat]
  exact Nat.mod_eq_of_lt hlt

theorem ofSextets_toSextets (bytes : List Byte) : ofSextets (toSextets bytes) = bytes := by
  induction bytes using toSextets.induct with
  | case1 first second third rest ih =>
      have hfirst := first.isLt
      have hsecond := second.isLt
      have hthird := third.isLt
      rw [toSextets, ofSextets, ih, val_sextet (by omega), val_sextet (by omega),
        val_sextet (by omega), val_sextet (by omega)]
      congr 1
      · exact byte_eq (by omega)
      · congr 1
        · exact byte_eq (by omega)
        · congr 1
          exact byte_eq (by omega)
  | case2 first second =>
      have hfirst := first.isLt
      have hsecond := second.isLt
      rw [toSextets, ofSextets, val_sextet (by omega), val_sextet (by omega), val_sextet (by omega)]
      congr 1
      · exact byte_eq (by omega)
      · congr 1
        exact byte_eq (by omega)
  | case3 first =>
      have hfirst := first.isLt
      rw [toSextets, ofSextets, val_sextet (by omega), val_sextet (by omega)]
      congr 1
      exact byte_eq (by omega)
  | case4 => rfl

theorem lowBytes_alphabet (value : Sextet) : lowBytes (alphabet value) = [alphabet value] := by
  revert value
  decide +kernel

theorem lowBytes_standardAlphabet (value : Sextet) :
    lowBytes (standardAlphabet value) = [standardAlphabet value] := by
  revert value
  decide +kernel

theorem alphabet_ne_padding (value : Sextet) : alphabet value ≠ '=' := by
  revert value
  decide +kernel

theorem standardAlphabet_ne_padding (value : Sextet) : standardAlphabet value ≠ '=' := by
  revert value
  decide +kernel

/-- A text of the alphabet is read up to its padding. -/
theorem unpadded_map_append {letter : Sextet → Char}
    (hletter : ∀ value, lowBytes (letter value) = [letter value])
    (hpadding : ∀ value, letter value ≠ '=') (sextets : List Sextet) (count : Nat) :
    unpadded (sextets.map letter ++ List.replicate count '=') = sextets.map letter := by
  have hsame : (sextets.map letter).flatMap lowBytes = sextets.map letter := by
    rw [List.flatMap_map, List.flatMap_congr fun value _ => hletter value, ← List.map_eq_flatMap]
  have hrest :
      ((List.replicate count '=').flatMap lowBytes).takeWhile (fun char => char ≠ '=') = [] := by
    cases count with
    | zero => rfl
    | succ count => rfl
  rw [unpadded, List.flatMap_append, hsame, List.takeWhile_append_of_pos, hrest, List.append_nil]
  intro char hchar
  obtain ⟨value, -, rfl⟩ := List.mem_map.mp hchar
  exact decide_eq_true (hpadding value)

theorem decode_map_append {letter : Sextet → Char}
    (hletter : ∀ value, lowBytes (letter value) = [letter value])
    (hpadding : ∀ value, letter value ≠ '=') (hread : ∀ value, ofChar (letter value) = some value)
    (bytes : List Byte) (count : Nat) :
    decode ((toSextets bytes).map letter ++ List.replicate count '=') = bytes := by
  have hback : ((toSextets bytes).map letter).filterMap ofChar = toSextets bytes := by
    rw [List.filterMap_map]
    exact (List.filterMap_congr fun value _ => hread value).trans List.filterMap_some
  rw [decode, unpadded_map_append hletter hpadding, hback, ofSextets_toSextets]

theorem decode_encode (bytes : List Byte) : decode (encode bytes) = bytes := by
  have hdecode := decode_map_append lowBytes_alphabet alphabet_ne_padding ofChar_alphabet bytes 0
  rwa [List.replicate_zero, List.append_nil] at hdecode

theorem decode_encodeStandard (bytes : List Byte) : decode (encodeStandard bytes) = bytes :=
  decode_map_append lowBytes_standardAlphabet standardAlphabet_ne_padding ofChar_standardAlphabet
    bytes _

theorem length_toSextets (bytes : List Byte) :
    (toSextets bytes).length = (4 * bytes.length + 2) / 3 := by
  induction bytes using toSextets.induct with
  | case1 first second third rest ih =>
      simp only [toSextets, List.length_cons, ih]
      omega
  | case2 first second => simp [toSextets]
  | case3 first => simp [toSextets]
  | case4 => simp [toSextets]

theorem length_encode (bytes : List Byte) : (encode bytes).length = (4 * bytes.length + 2) / 3 := by
  rw [encode, List.length_map, length_toSextets]

end Base64
