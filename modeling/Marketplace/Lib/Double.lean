import Mathlib.Algebra.Order.Ring.Nat
import Mathlib.Data.Nat.Log

/-!
# Integers as doubles

Sums and products of numbers that hold integers: below `2 ^ 53` they are exact, above it they are
rounded to 53 bits, ties to even. An infinity is an integer that is larger than all others.
-/

namespace Double

def exactBound : Nat := 2 ^ 53

def roundNat (value : Nat) : Nat :=
  if value < exactBound then value
  else
    let unit := 2 ^ (value.log2 - 52)
    let below := value / unit * unit
    let rest := value % unit
    if 2 * rest < unit ∨ 2 * rest = unit ∧ value / unit % 2 = 0 then below else below + unit

def round (value : Int) : Int :=
  if value < 0 then -(roundNat value.natAbs : Int) else roundNat value.natAbs

/-- A finite double has this value: the exponent ends at 1023. -/
def IsDouble (value : Int) : Prop := round value = value ∧ value.natAbs.log2 < 1024

def add (left right : Int) : Int := round (left + right)

def mul (left right : Int) : Int := round (left * right)

theorem exactBound_le_roundNat {value : Nat} (hlarge : exactBound ≤ value) :
    exactBound ≤ roundNat value := by
  have hne : value ≠ 0 := by
    rintro rfl
    exact absurd hlarge (by decide)
  have hlog : 53 ≤ value.log2 := (Nat.le_log2 hne).mpr hlarge
  have hunit : 0 < 2 ^ (value.log2 - 52) := Nat.two_pow_pos _
  have hsplit : 2 ^ 52 * 2 ^ (value.log2 - 52) = 2 ^ value.log2 := by
    rw [← Nat.pow_add]
    congr 1
    omega
  have hquotient : 2 ^ 52 ≤ value / 2 ^ (value.log2 - 52) := by
    rw [Nat.le_div_iff_mul_le hunit, hsplit]
    exact Nat.log2_self_le hne
  have hbelow : exactBound ≤ value / 2 ^ (value.log2 - 52) * 2 ^ (value.log2 - 52) := by
    calc
      exactBound ≤ 2 ^ value.log2 := Nat.pow_le_pow_right (by omega) hlog
      _ = 2 ^ 52 * 2 ^ (value.log2 - 52) := hsplit.symm
      _ ≤ _ := Nat.mul_le_mul_right _ hquotient
  unfold roundNat
  rw [if_neg (Nat.not_lt.mpr hlarge)]
  dsimp only
  split
  · exact hbelow
  · exact Nat.le_trans hbelow (Nat.le_add_right _ _)

theorem isDouble_of_lt {value : Nat} (hsmall : value < exactBound) : IsDouble value := by
  constructor
  · rw [round, if_neg (by omega), roundNat, Int.natAbs_natCast, if_pos hsmall]
  · rw [Int.natAbs_natCast]
    by_cases hzero : value = 0
    · rw [hzero]
      decide
    · exact Nat.lt_trans ((Nat.log2_lt hzero).mpr hsmall) (by decide)

/-- `double` is what rounding has made of a value that is not negative. -/
structure Tracks (value double : Int) : Prop where
  exact : value < exactBound → double = value
  large : exactBound ≤ value → exactBound ≤ double

variable {value double left right left' right' : Int}

theorem tracks_round (hvalue : 0 ≤ value) : Tracks value (round value) := by
  obtain ⟨value, rfl⟩ := Int.eq_ofNat_of_zero_le hvalue
  have hround : round value = roundNat value := if_neg (by omega)
  constructor
  · intro hsmall
    rw [hround, roundNat, if_pos (Int.ofNat_lt.mp hsmall)]
  · intro hlarge
    rw [hround]
    exact Int.ofNat_le.mpr (exactBound_le_roundNat (Int.ofNat_le.mp hlarge))

theorem Tracks.nonneg (htracks : Tracks value double) (hvalue : 0 ≤ value) : 0 ≤ double := by
  rcases Int.lt_or_le value exactBound with hsmall | hlarge
  · rw [htracks.exact hsmall]
    exact hvalue
  · exact Int.le_trans (Int.natCast_nonneg _) (htracks.large hlarge)

theorem Tracks.add (hleft : Tracks left left') (hright : Tracks right right') (hleft' : 0 ≤ left)
    (hright' : 0 ≤ right) : Tracks (left + right) (Double.add left' right') := by
  have hsum : Tracks (left' + right') (Double.add left' right') :=
    tracks_round (Int.add_nonneg (hleft.nonneg hleft') (hright.nonneg hright'))
  constructor
  · intro hsmall
    have hl := hleft.exact (by omega)
    have hr := hright.exact (by omega)
    rw [hsum.exact (by omega), hl, hr]
  · intro hlarge
    apply hsum.large
    have hl := hleft.nonneg hleft'
    have hr := hright.nonneg hright'
    rcases Int.lt_or_le left exactBound with hsmall | hlarge'
    · rcases Int.lt_or_le right exactBound with hsmall' | hlarge'
      · rw [hleft.exact hsmall, hright.exact hsmall']
        exact hlarge
      · have := hright.large hlarge'
        omega
    · have := hleft.large hlarge'
      omega

/-- A small result has not been rounded. -/
theorem Tracks.eq_of_lt (htracks : Tracks value double) (hsmall : double < exactBound) :
    double = value := by
  rcases Int.lt_or_le value exactBound with hvalue | hlarge
  · exact htracks.exact hvalue
  · exact absurd (htracks.large hlarge) (Int.not_le.mpr hsmall)

end Double
