import Marketplace.Lib.Base64

/-!
# UTF-8

Text as bytes and back. The decoder never fails: a byte that cannot go on with what came before it
is where the replacement character goes, and decoding resumes there.
-/

namespace Utf8

open Base64 (Byte byte)

def encodeChar (char : Char) : List Byte :=
  let code := char.toNat
  if code < 0x80 then [byte code]
  else if code < 0x800 then [byte (0xC0 + code / 64), byte (0x80 + code % 64)]
  else if code < 0x10000 then
    [byte (0xE0 + code / 4096), byte (0x80 + code / 64 % 64), byte (0x80 + code % 64)]
  else
    [byte (0xF0 + code / 262144), byte (0x80 + code / 4096 % 64), byte (0x80 + code / 64 % 64),
      byte (0x80 + code % 64)]

def encode (text : List Char) : List Byte := text.flatMap encodeChar

def replacement : Char := Char.ofNat 0xFFFD

/-- Read `count` more bytes of a character, the first of them between `low` and `high`. -/
def readMore : Nat → Nat → Nat → Nat → List Byte → Char × List Byte
  | 0, code, _, _, bytes => (Char.ofNat code, bytes)
  | _ + 1, _, _, _, [] => (replacement, [])
  | count + 1, code, low, high, next :: rest =>
      if low ≤ next.val ∧ next.val ≤ high then
        readMore count (code * 64 + (next.val - 0x80)) 0x80 0xBF rest
      else (replacement, next :: rest)

/-- Read a character that begins with `first`. Overlong forms, surrogates and what lies above the
last code point are cut off by the range of the second byte. -/
def readChar (first : Nat) (rest : List Byte) : Char × List Byte :=
  if first < 0x80 then (Char.ofNat first, rest)
  else if 0xC2 ≤ first ∧ first ≤ 0xDF then readMore 1 (first - 0xC0) 0x80 0xBF rest
  else if 0xE0 ≤ first ∧ first ≤ 0xEF then
    readMore 2 (first - 0xE0) (if first = 0xE0 then 0xA0 else 0x80)
      (if first = 0xED then 0x9F else 0xBF) rest
  else if 0xF0 ≤ first ∧ first ≤ 0xF4 then
    readMore 3 (first - 0xF0) (if first = 0xF0 then 0x90 else 0x80)
      (if first = 0xF4 then 0x8F else 0xBF) rest
  else (replacement, rest)

def decodeWithin : Nat → List Byte → List Char
  | 0, _ => []
  | _ + 1, [] => []
  | fuel + 1, first :: rest =>
      let (char, rest) := readChar first.val rest
      char :: decodeWithin fuel rest

def decode (bytes : List Byte) : List Char := decodeWithin bytes.length bytes

theorem val_byte {value : Nat} (hlt : value < 256) : (byte value : Nat) = value := by
  rw [byte, Fin.val_ofNat]
  exact Nat.mod_eq_of_lt hlt

theorem code_range (char : Char) : char.toNat < 0xD800 ∨ 0xDFFF < char.toNat ∧
    char.toNat < 0x110000 :=
  char.valid

theorem ofNat_eq (char : Char) {code : Nat} (heq : code = char.toNat) : Char.ofNat code = char := by
  rw [heq, Char.ofNat_toNat]

theorem readMore_byte {count code low high value : Nat} {rest : List Byte} (hlow : low ≤ value)
    (hhigh : value ≤ high) (hlt : value < 256) :
    readMore (count + 1) code low high (byte value :: rest) =
      readMore count (code * 64 + (value - 0x80)) 0x80 0xBF rest := by
  rw [readMore, val_byte hlt, if_pos ⟨hlow, hhigh⟩]

/-- What `readChar` makes of the bytes of a character. -/
theorem readChar_encodeChar (char : Char) (rest : List Byte) :
    ∃ first more, encodeChar char = first :: more ∧
      readChar first.val (more ++ rest) = (char, rest) := by
  have hrange := code_range char
  unfold encodeChar
  by_cases hone : char.toNat < 0x80
  · refine ⟨_, _, if_pos hone, ?_⟩
    rw [val_byte (by omega), readChar, if_pos hone, Char.ofNat_toNat, List.nil_append]
  · by_cases htwo : char.toNat < 0x800
    · refine ⟨byte (0xC0 + char.toNat / 64), [byte (0x80 + char.toNat % 64)], ?_, ?_⟩
      · rw [if_neg hone, if_pos htwo]
      · rw [val_byte (by omega), readChar, if_neg (by omega), if_pos (by omega), List.cons_append,
          readMore_byte (by omega) (by omega) (by omega), readMore, List.nil_append,
          ofNat_eq char (by omega)]
    · by_cases hthree : char.toNat < 0x10000
      · refine ⟨byte (0xE0 + char.toNat / 4096),
          [byte (0x80 + char.toNat / 64 % 64), byte (0x80 + char.toNat % 64)], ?_, ?_⟩
        · rw [if_neg hone, if_neg htwo, if_pos hthree]
        · rw [val_byte (by omega), readChar, if_neg (by omega), if_neg (by omega),
            if_pos (by omega), List.cons_append, readMore_byte (by split <;> omega)
            (by split <;> omega) (by omega), List.cons_append,
            readMore_byte (by omega) (by omega) (by omega), readMore, List.nil_append,
            ofNat_eq char (by omega)]
      · refine ⟨byte (0xF0 + char.toNat / 262144),
          [byte (0x80 + char.toNat / 4096 % 64), byte (0x80 + char.toNat / 64 % 64),
            byte (0x80 + char.toNat % 64)], ?_, ?_⟩
        · rw [if_neg hone, if_neg htwo, if_neg hthree]
        · rw [val_byte (by omega), readChar, if_neg (by omega), if_neg (by omega),
            if_neg (by omega), if_pos (by omega), List.cons_append,
            readMore_byte (by split <;> omega) (by split <;> omega) (by omega), List.cons_append,
            readMore_byte (by omega) (by omega) (by omega), List.cons_append,
            readMore_byte (by omega) (by omega) (by omega), readMore, List.nil_append,
            ofNat_eq char (by omega)]

theorem decodeWithin_encode (text : List Char) :
    ∀ fuel, (encode text).length ≤ fuel → decodeWithin fuel (encode text) = text := by
  induction text with
  | nil =>
      intro fuel _
      cases fuel <;> rfl
  | cons char rest ih =>
      intro fuel hfuel
      obtain ⟨first, more, hbytes, hread⟩ := readChar_encodeChar char (encode rest)
      have hencode : encode (char :: rest) = first :: (more ++ encode rest) := by
        rw [encode, List.flatMap_cons, hbytes, List.cons_append]
        rfl
      rw [hencode] at hfuel ⊢
      cases fuel with
      | zero => cases hfuel
      | succ fuel =>
          rw [decodeWithin, hread]
          change char :: decodeWithin fuel (encode rest) = char :: rest
          rw [ih]
          rw [List.length_cons, List.length_append] at hfuel
          omega

theorem decode_encode (text : List Char) : decode (encode text) = text :=
  decodeWithin_encode text _ (Nat.le_refl _)

/-! ### Half a text -/

variable {char : Char} {tail bytes received : List Byte} {text : List Char}

/-- Where a character needs all of its bytes, fewer of them are not one. -/
theorem readMore_prefix {count code low high : Nat}
    (hread : readMore count code low high (bytes ++ tail) = (char, tail))
    (hbegin : received <+: bytes) (hne : received ≠ bytes) : readMore count code low high received =
    (replacement, []) := by
  induction count generalizing code low high bytes received with
  | zero =>
      have hnone : bytes = [] := List.append_left_eq_self.mp (congrArg Prod.snd hread)
      rw [hnone, List.prefix_nil] at hbegin
      exact absurd (hbegin.trans hnone.symm) hne
  | succ count ih =>
      cases received with
      | nil => rfl
      | cons next received =>
          obtain ⟨more, rfl⟩ := hbegin
          rw [List.cons_append, List.cons_append, readMore] at hread
          by_cases hrange : low ≤ next.val ∧ next.val ≤ high
          · rw [if_pos hrange] at hread
            rw [readMore, if_pos hrange]
            exact ih hread (List.prefix_append received more) fun heq => hne (by
              rw [List.cons_append, ← heq])
          · rw [if_neg hrange] at hread
            have hlength := congrArg (List.length ∘ Prod.snd) hread
            simp at hlength
            omega

theorem readChar_prefix {first : Nat} (hread : readChar first (bytes ++ tail) = (char, tail))
    (hbegin : received <+: bytes) (hne : received ≠ bytes) :
    readChar first received = (replacement, []) := by
  have hsome : bytes ≠ [] := by
    intro hnone
    rw [hnone, List.prefix_nil] at hbegin
    exact hne (hbegin.trans hnone.symm)
  have hrest : bytes ++ tail ≠ tail := fun heq => hsome (List.append_left_eq_self.mp heq)
  rw [readChar] at hread ⊢
  by_cases hone : first < 0x80
  · rw [if_pos hone] at hread
    exact absurd (congrArg Prod.snd hread) hrest
  rw [if_neg hone] at hread ⊢
  by_cases htwo : 0xC2 ≤ first ∧ first ≤ 0xDF
  · rw [if_pos htwo] at hread ⊢
    exact readMore_prefix hread hbegin hne
  rw [if_neg htwo] at hread ⊢
  by_cases hthree : 0xE0 ≤ first ∧ first ≤ 0xEF
  · rw [if_pos hthree] at hread ⊢
    exact readMore_prefix hread hbegin hne
  rw [if_neg hthree] at hread ⊢
  by_cases hfour : 0xF0 ≤ first ∧ first ≤ 0xF4
  · rw [if_pos hfour] at hread ⊢
    exact readMore_prefix hread hbegin hne
  rw [if_neg hfour] at hread
  exact absurd (congrArg Prod.snd hread) hrest

theorem decodeWithin_nil (fuel : Nat) : decodeWithin fuel [] = [] := by
  cases fuel <;> rfl

/-- Of a text that is cut off anywhere, the decoder makes a prefix, and of a broken character at the
end the replacement. -/
theorem decodeWithin_prefix (hbegin : received <+: encode text) (fuel : Nat)
    (hfuel : received.length ≤ fuel) :
    ∃ whole junk, whole <+: text ∧ decodeWithin fuel received = whole ++ junk ∧
      ∀ char ∈ junk, char = replacement := by
  induction text generalizing received fuel with
  | nil =>
      rw [List.prefix_nil.mp hbegin]
      exact ⟨[], [], List.nil_prefix, decodeWithin_nil fuel, by simp⟩
  | cons char text ih =>
      obtain ⟨first, more, hbytes, -⟩ := readChar_encodeChar char []
      rw [encode, List.flatMap_cons, hbytes, List.cons_append] at hbegin
      rcases List.prefix_cons_iff.mp hbegin with rfl | ⟨received, rfl, hrest⟩
      · exact ⟨[], [], List.nil_prefix, decodeWithin_nil fuel, by simp⟩
      rw [List.length_cons] at hfuel
      obtain ⟨fuel, rfl⟩ : ∃ less, fuel = less + 1 := ⟨fuel - 1, by omega⟩
      rw [decodeWithin]
      by_cases hwhole : more <+: received
      · obtain ⟨tail, rfl⟩ := hwhole
        rw [List.length_append] at hfuel
        obtain ⟨whole, junk, hbefore, hdecode, hjunk⟩ :=
          ih ((List.prefix_append_right_inj more).mp hrest) fuel (by omega)
        obtain ⟨_, _, hsame, hread⟩ := readChar_encodeChar char tail
        obtain ⟨rfl, rfl⟩ := List.cons_eq_cons.mp (hbytes.symm.trans hsame)
        refine ⟨char :: whole, junk, List.cons_prefix_cons.mpr ⟨rfl, hbefore⟩, ?_, hjunk⟩
        rw [hread, List.cons_append, ← hdecode]
      · have hshort : received <+: more :=
          (List.prefix_or_prefix_of_prefix hrest (List.prefix_append _ _)).resolve_right hwhole
        obtain ⟨_, _, hsame, hread⟩ := readChar_encodeChar char []
        obtain ⟨rfl, rfl⟩ := List.cons_eq_cons.mp (hbytes.symm.trans hsame)
        have hbroken := readChar_prefix hread hshort fun heq => hwhole (heq ▸ List.prefix_refl more)
        refine ⟨[], [replacement], List.nil_prefix, ?_,
          fun char hchar => List.mem_singleton.mp hchar⟩
        rw [hbroken]
        change replacement :: decodeWithin fuel [] = [replacement]
        rw [decodeWithin_nil]

theorem decode_prefix (hbegin : received <+: encode text) :
    ∃ whole junk, whole <+: text ∧ decode received = whole ++ junk ∧ ∀ char ∈ junk,
      char = replacement :=
  decodeWithin_prefix hbegin _ (Nat.le_refl _)

end Utf8
