/-
  Doubles as text — what an output stream makes of a `double` that is not negative.

  1. **Values** — a finite `double` is a rational number.  `toDouble` is the `double` next to a
     rational, ties to the even significand: so are a quotient and a conversion from an integer
     rounded.  A division by zero gives no finite `double`, and `Double.div` says so.  The range of
     the exponents is not bounded above.

  2. **Program** — `fixedText precision x` is `std::fixed << std::setprecision(precision) << x`, and
     `defaultText x` is `<< x` on a new stream: six significant digits less the zeros at their end, with
     an exponent from a million on and below a ten-thousandth.  Both round the exact value.

  3. **Numbers (`isNumber_fixedText`, `isNumber_defaultText`)** — every finite value is written as a
     number of JSON.  Infinity and what is not a number are not.
-/
import HttpServer.Decimal
import HttpServer.Lib.FlatJson
import Mathlib.Data.Int.Log
import Mathlib.Data.List.DropRight
import Mathlib.Data.NNRat.Floor

namespace HttpServer

/-! ## Values -/

/-- The natural number next to `x`; of two, the even one. -/
def roundEven (x : ℚ≥0) : Nat :=
  let n := ⌊x⌋₊
  if x < n + 1 / 2 then n
  else if x = n + 1 / 2 then n + n % 2
  else n + 1

/-- The exponent of the last bit of the significand: 53 bits, and no bit below `2 ^ (-1074)`. -/
def lastBit (x : ℚ≥0) : Int := max (Int.log 2 x - 52) (-1074)

/-- The value of the `double` next to `x`. -/
def toDouble (x : ℚ≥0) : ℚ≥0 := roundEven (x / 2 ^ lastBit x) * 2 ^ lastBit x

/-- A `double` that is not negative. -/
inductive Double
  | finite (value : ℚ≥0)
  | infinity
  | nan
  deriving DecidableEq

namespace Double

/-- `static_cast<double>(n)`. -/
def ofNat (n : Nat) : Double := .finite (toDouble n)

/-- `x / y`. -/
def div : Double → Double → Double
  | .finite x, .finite y =>
    if y ≠ 0 then .finite (toDouble (x / y)) else if x ≠ 0 then .infinity else .nan
  | .finite _, .infinity => .finite 0
  | .infinity, .finite _ => .infinity
  | .infinity, .infinity => .nan
  | .nan, _ => .nan
  | _, .nan => .nan

end Double

/-! ## Text -/

/-- The last `count` decimal digits of `n`. -/
def lastDigits : (count n : Nat) → Bytes
  | 0, _ => []
  | count + 1, n => lastDigits count (n / 10) ++ [UInt8.ofNat (48 + n % 10)]

/-- `std::fixed << std::setprecision(precision) << x`. -/
def fixedText (precision : Nat) (x : ℚ≥0) : Bytes :=
  let n := roundEven (x * 10 ^ precision)
  toDecimal (n / 10 ^ precision) ++
    if precision = 0 then [] else 46 :: lastDigits precision n

/-- The six digits that are written, as a number, and the power of ten of the first. -/
def significant (x : ℚ≥0) : Nat × Int :=
  if x = 0 then (0, 0)
  else
    let n := roundEven (x / 10 ^ (Int.log 10 x - 5))
    -- rounding up may take one more digit
    if n = 10 ^ 6 then (10 ^ 5, Int.log 10 x + 1) else (n, Int.log 10 x)

/-- A fraction without the zeros at its end, and no point without a fraction. -/
def fractionText (digits : Bytes) : Bytes :=
  if digits.rdropWhile (· = 48) = [] then [] else 46 :: digits.rdropWhile (· = 48)

/-- An exponent: its sign and two digits at least. -/
def exponentText (e : Int) : Bytes :=
  101 :: (if e < 0 then 45 else 43) ::
    if e.natAbs < 10 then 48 :: toDecimal e.natAbs else toDecimal e.natAbs

/-- `<< x` on a new stream. -/
def defaultText (x : ℚ≥0) : Bytes :=
  let (n, e) := significant x
  if -4 ≤ e ∧ e < 6 then
    let count := (5 - e).toNat
    toDecimal (n / 10 ^ count) ++ fractionText (lastDigits count n)
  else toDecimal (n / 10 ^ 5) ++ fractionText (lastDigits 5 n) ++ exponentText e

/-- What is written for a `double` whose finite values are written by `text`. -/
def Double.write (text : ℚ≥0 → Bytes) : Double → Bytes
  | .finite x => text x
  | .infinity => str "inf"
  | .nan => str "nan"

example : fixedText 1 (100 + 1 / 4) = str "100.2" := by decide +kernel
example : defaultText (toDouble (2 / 3)) = str "0.666667" := by decide +kernel
example : defaultText 1234567 = str "1.23457e+06" := by decide +kernel

/-! ## The divisor is not zero -/

theorem le_roundEven (x : ℚ≥0) : ⌊x⌋₊ ≤ roundEven x := by
  unfold roundEven
  simp only
  split
  · exact Nat.le_refl _
  · split <;> omega

/-- No number from one on is rounded to zero. -/
theorem toDouble_ne_zero {x : ℚ≥0} (h : 1 ≤ x) : toDouble x ≠ 0 := by
  have hpos : 0 < x := lt_of_lt_of_le one_pos h
  have hlog : lastBit x = Int.log 2 x - 52 := by
    have hnonneg : 0 ≤ Int.log 2 x := by
      rw [Int.log_of_one_le_right 2 h]
      exact Int.natCast_nonneg _
    exact max_eq_left (by omega)
  -- the significand has its first bit
  have hsignificand : (1 : ℚ≥0) ≤ x / 2 ^ lastBit x := by
    rw [one_le_div (zpow_pos two_pos _), hlog]
    calc (2 : ℚ≥0) ^ (Int.log 2 x - 52) ≤ 2 ^ Int.log 2 x :=
          zpow_le_zpow_right₀ one_le_two (by omega)
      _ ≤ x := by exact_mod_cast Int.zpow_log_le_self (b := 2) one_lt_two hpos
  have hround : 1 ≤ roundEven (x / 2 ^ lastBit x) :=
    (Nat.one_le_floor_iff _ |>.mpr hsignificand).trans (le_roundEven _)
  unfold toDouble
  exact mul_ne_zero (by exact_mod_cast Nat.one_le_iff_ne_zero.mp hround) (zpow_ne_zero _ two_ne_zero)

/-- **A quotient by a count that is not zero is finite.** -/
theorem Double.div_ofNat {x : ℚ≥0} {n : Nat} (h : 0 < n) :
    (Double.finite x).div (.ofNat n) = .finite (toDouble (x / toDouble n)) := by
  have hne : toDouble n ≠ 0 := toDouble_ne_zero (by exact_mod_cast h)
  rw [Double.ofNat, Double.div, if_pos hne]

/-! ## Both are numbers -/

theorem all_isDigit_toDecimal (n : Nat) : (toDecimal n).all FlatJson.isDigit = true := by
  rw [List.all_eq_true]
  intro b hb
  exact isdigit_of_mem_toDecimal hb

/-- The first digit is a zero only where it is the only one. -/
theorem isWhole_toDecimal (n : Nat) : FlatJson.isWhole (toDecimal n) = true := by
  unfold toDecimal
  split
  · rfl
  · rename_i hn
    have hne : Nat.digits 10 n ≠ [] := Nat.digits_ne_nil_iff_ne_zero.mpr hn
    have hlast : (Nat.digits 10 n).getLast hne ≠ 0 := Nat.getLast_digit_ne_zero 10 hn
    have hlt : (Nat.digits 10 n).getLast hne < 10 :=
      Nat.digits_lt_base (by decide) (List.getLast_mem hne)
    have hfirst : UInt8.ofNat (48 + (Nat.digits 10 n).getLast hne) ≠ 48 := by
      intro h
      have hsub := toNat_sub_of_digit hlt
      rw [h] at hsub
      exact hlast hsub.symm
    unfold FlatJson.isWhole
    rw [List.head?_map, List.head?_reverse, List.getLast?_eq_some_getLast hne, Option.map_some]
    have hhead : some (UInt8.ofNat (48 + (Nat.digits 10 n).getLast hne)) ≠ some 48 :=
      fun h => hfirst (Option.some.inj h)
    rw [decide_eq_true hhead, Bool.true_or, Bool.and_true]
    simpa using hne

/-- What may follow the digits of a number: a fraction, an exponent, both or nothing. -/
theorem isNumber_toDecimal_append (n : Nat) {tail : Bytes} (h : FlatJson.isFraction tail = true) :
    FlatJson.isNumber (toDecimal n ++ tail) = true :=
  (FlatJson.isNumber_append (all_isDigit_toDecimal n) (isWhole_toDecimal n) h).1

theorem all_isDigit_lastDigits (count n : Nat) :
    (lastDigits count n).all FlatJson.isDigit = true := by
  induction count generalizing n with
  | zero => rfl
  | succ count ih =>
    rw [lastDigits, List.all_append, ih, Bool.true_and, List.all_cons, List.all_nil, Bool.and_true]
    exact isdigit_ofNat (Nat.mod_lt _ (by decide))

theorem length_lastDigits (count n : Nat) : (lastDigits count n).length = count := by
  induction count generalizing n with
  | zero => rfl
  | succ count ih => rw [lastDigits, List.length_append, ih, List.length_singleton]

/-- A fraction whose zeros are taken off, with an exponent or none behind it. -/
theorem isFraction_fractionText {digits exponent : Bytes}
    (h : digits.all FlatJson.isDigit = true) (hexponent : FlatJson.isExponent exponent = true) :
    FlatJson.isFraction (fractionText digits ++ exponent) = true := by
  unfold fractionText
  split
  · exact FlatJson.isFraction_of_isExponent hexponent
  · rename_i hne
    refine FlatJson.isFraction_append (List.all_eq_true.mpr fun b hb => ?_) hne hexponent
    exact List.all_eq_true.mp h b ((List.rdropWhile_prefix _ digits).subset hb)

theorem isExponent_exponentText (e : Int) : FlatJson.isExponent (exponentText e) = true := by
  have hdigits := all_isDigit_toDecimal e.natAbs
  refine FlatJson.isExponent_of_sign (by split <;> decide) ?_ ?_
  · split
    · rw [List.all_cons, hdigits]
      rfl
    · exact hdigits
  · split
    · exact List.cons_ne_nil _ _
    · exact toDecimal_ne_nil _

/-- **With any number of decimals a value is a number of JSON.** -/
theorem isNumber_fixedText (precision : Nat) (x : ℚ≥0) :
    FlatJson.isNumber (fixedText precision x) = true := by
  refine isNumber_toDecimal_append _ ?_
  split
  · rfl
  · rename_i hprecision
    have hne : lastDigits precision (roundEven (x * 10 ^ precision)) ≠ [] := by
      intro hnil
      have hlength := length_lastDigits precision (roundEven (x * 10 ^ precision))
      rw [hnil] at hlength
      exact hprecision hlength.symm
    have hpoint : FlatJson.isFraction
        (46 :: (lastDigits precision (roundEven (x * 10 ^ precision)) ++ [])) = true :=
      FlatJson.isFraction_append (all_isDigit_lastDigits _ _) hne rfl
    rwa [List.append_nil] at hpoint

/-- **With six significant digits it is one too**, with an exponent or without. -/
theorem isNumber_defaultText (x : ℚ≥0) : FlatJson.isNumber (defaultText x) = true := by
  unfold defaultText
  simp only
  split
  · have hfraction : FlatJson.isFraction (fractionText
        (lastDigits (5 - (significant x).2).toNat (significant x).1) ++ []) = true :=
      isFraction_fractionText (all_isDigit_lastDigits _ _) rfl
    rw [List.append_nil] at hfraction
    exact isNumber_toDecimal_append _ hfraction
  · rw [List.append_assoc]
    exact isNumber_toDecimal_append _
      (isFraction_fractionText (all_isDigit_lastDigits _ _) (isExponent_exponentText _))

end HttpServer
