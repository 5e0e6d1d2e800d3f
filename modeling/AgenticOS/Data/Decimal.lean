import Mathlib.Data.Rat.Floor

/-!
# Decimal rounding and formatting

Amounts of money, ratios and times are exact rationals in this development. The
program still rounds and prints them: `round(x, n)` and the format directives
`.nf` and `.0%` round to a number of decimals, a tie going to the even neighbour.
-/

namespace AgenticOS.Decimal

/-- The integer nearest to a rational, ties going to the even one. -/
def roundHalfEven (value : ℚ) : ℤ :=
  let below := ⌊value⌋
  let fraction := value - below
  if fraction < 1 / 2 then below
  else if 1 / 2 < fraction then below + 1
  else if below % 2 = 0 then below
  else below + 1

/-- `round(value, digits)`. -/
def roundTo (digits : Nat) (value : ℚ) : ℚ :=
  roundHalfEven (value * 10 ^ digits) / 10 ^ digits

/-- Decimal digits padded with zeros on the left. -/
def padded (width : Nat) (number : Nat) : String :=
  let digits := toString number
  String.ofList (List.replicate (width - digits.length) '0') ++ digits

/-- The format directive `.nf`. A negative amount keeps its sign when it rounds to
zero. -/
def fixed (digits : Nat) (value : ℚ) : String :=
  let scaled := (roundHalfEven (|value| * 10 ^ digits)).toNat
  let sign := if value < 0 then "-" else ""
  let whole := toString (scaled / 10 ^ digits)
  if digits = 0 then sign ++ whole
  else sign ++ whole ++ "." ++ padded digits (scaled % 10 ^ digits)

/-- The format directive `.0%`. -/
def percent (value : ℚ) : String :=
  fixed 0 (value * 100) ++ "%"

example : fixed 4 (5 / 2) = "2.5000" := by decide +kernel

example : percent (17 / 20) = "85%" := by decide +kernel

end AgenticOS.Decimal
