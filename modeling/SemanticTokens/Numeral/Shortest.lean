import SemanticTokens.Numeral.Binary64

/-!
# Shortest decimals

A magnitude of double precision is written with the fewest digits that read
back as the same magnitude.  Those are found on the coarsest grid of powers of
ten that has a point in the interval of numbers rounding to the magnitude;
of two such points the nearer one counts, and the even one of two equally near.
-/

namespace SemanticTokens.Numeral

/-- The number `digits * 10 ^ exponent`. -/
structure Decimal where
  digits : Nat
  exponent : Int
  deriving DecidableEq, Repr

namespace Decimal

/-- Compares a decimal with `quarters * 2 ^ exponent`. -/
def compareBinary (decimal : Decimal) (quarters : Nat) (exponent : Int) : Ordering :=
  compare
    (decimal.digits * Nat.pow 10 decimal.exponent.toNat * Nat.pow 2 (-exponent).toNat)
    (quarters * Nat.pow 2 exponent.toNat * Nat.pow 10 (-decimal.exponent).toNat)

/-- Whether a decimal rounds to a magnitude.

The bounds lie halfway to the neighbours, in quarters of the last place.  The
one below is nearer where the mantissa has just gained a bit.  A bound itself
rounds to the even mantissa. -/
def roundsTo (decimal : Decimal) (value : Binary64) : Bool :=
  let gained :=
    value.mantissa * 2 == Binary64.mantissaLimit && Binary64.leastExponent < value.exponent
  let lower := 4 * value.mantissa - if gained then 1 else 2
  let upper := 4 * value.mantissa + 2
  let even := value.mantissa % 2 == 0
  let fromLower := decimal.compareBinary lower (value.exponent - 2)
  let fromUpper := decimal.compareBinary upper (value.exponent - 2)
  (fromLower == .gt || even && fromLower == .eq) &&
    (fromUpper == .lt || even && fromUpper == .eq)

/-- The point of a power-of-ten grid at or below a magnitude. -/
def gridPoint (value : Binary64) (exponent : Int) : Nat :=
  value.mantissa * Nat.pow 2 value.exponent.toNat * Nat.pow 10 (-exponent).toNat /
    (Nat.pow 2 (-value.exponent).toNat * Nat.pow 10 exponent.toNat)

/-- The best point of a grid that rounds to a magnitude. -/
def onGrid? (value : Binary64) (exponent : Int) : Option Decimal :=
  let below : Decimal := ⟨gridPoint value exponent, exponent⟩
  let above : Decimal := ⟨below.digits + 1, exponent⟩
  match below.roundsTo value, above.roundsTo value with
  | false, false => none
  | true, false => some below
  | false, true => some above
  | true, true =>
      -- The middle between both points, in halves of the grid.
      let middle : Decimal := ⟨(2 * below.digits + 1) * 5, exponent - 1⟩
      match middle.compareBinary value.mantissa value.exponent with
      | .gt => some below
      | .lt => some above
      | .eq => some (if below.digits % 2 = 0 then below else above)

def search (value : Binary64) : Nat → Int → Decimal
  | 0, exponent => ⟨gridPoint value exponent, exponent⟩
  | steps + 1, exponent =>
      (onGrid? value exponent).getD (search value steps (exponent - 1))

/-- The exponent of the coarsest grid with a point among the magnitudes. -/
def coarsestGrid : Int :=
  308

/-- The number of grids down to the coarsest one that separates all magnitudes. -/
def gridCount : Nat :=
  308 + 1 + 324

def shortest (value : Binary64) : Decimal :=
  if value.mantissa = 0 then ⟨0, 0⟩ else search value gridCount coarsestGrid

/-- The text of a decimal.

From one hundred-thousandth up to below `10 ^ 16` it is positional with at
least one place after the point; elsewhere the first digit stands before the
point and a signed power of ten follows. -/
def text (decimal : Decimal) : String :=
  let digits := (toString decimal.digits).toList
  -- Number of digits before the point.
  let whole : Int := digits.length + decimal.exponent
  if 0 < whole && whole ≤ 16 then
    let padded := digits ++ List.replicate (whole.toNat - digits.length) '0'
    let places := padded.drop whole.toNat
    String.ofList (padded.take whole.toNat) ++ "." ++
      if places.isEmpty then "0" else String.ofList places
  else if -5 < whole && whole ≤ 0 then
    "0." ++ String.ofList (List.replicate (-whole).toNat '0' ++ digits)
  else
    let places := digits.drop 1
    String.ofList (digits.take 1) ++
      (if places.isEmpty then "" else "." ++ String.ofList places) ++
      (if whole ≤ 0 then "e-" ++ toString (1 - whole).toNat
        else "e+" ++ toString (whole - 1).toNat)

end Decimal

end SemanticTokens.Numeral
