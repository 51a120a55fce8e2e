/-!
# Double precision in exact arithmetic

A magnitude of double precision is a mantissa of at most 53 bits times a power
of two.  Rounding takes a fraction of natural numbers to the nearest such
magnitude, and to the even mantissa from halfway.  Products and quotients are
rounded once.  A result past the largest magnitude is absent.
-/

namespace SemanticTokens.Numeral

/-- The magnitude `mantissa * 2 ^ exponent`. -/
structure Binary64 where
  mantissa : Nat
  exponent : Int
  deriving DecidableEq, Repr

namespace Binary64

def leastExponent : Int :=
  -1074

/-- The greatest exponent of a mantissa of 53 bits. -/
def greatestExponent : Int :=
  971

/-- One more than the greatest mantissa. -/
def mantissaLimit : Nat :=
  Nat.pow 2 53

def zero : Binary64 :=
  ⟨0, leastExponent⟩

/-- The natural number nearest to a quotient, the even one from halfway. -/
def nearestQuotient (numerator denominator : Nat) : Nat :=
  let quotient := numerator / denominator
  let doubledRest := 2 * (numerator % denominator)
  if doubledRest < denominator then quotient
  else if denominator < doubledRest then quotient + 1
  else quotient + quotient % 2

/-- The numerator and the denominator of a fraction divided by a power of two. -/
def overPower (numerator denominator : Nat) (exponent : Int) : Nat × Nat :=
  (numerator * Nat.pow 2 (-exponent).toNat, denominator * Nat.pow 2 exponent.toNat)

/-- The exponent at which a fraction has a mantissa of 53 bits, or the least exponent. -/
def exponentFor (numerator denominator : Nat) : Int :=
  let low : Int := numerator.log2 - denominator.log2 - 53
  let (scaledNumerator, scaledDenominator) := overPower numerator denominator low
  let exact := if scaledNumerator / scaledDenominator < mantissaLimit then low else low + 1
  max exact leastExponent

def nearest? (numerator denominator : Nat) : Option Binary64 :=
  let exponent := exponentFor numerator denominator
  let (scaledNumerator, scaledDenominator) := overPower numerator denominator exponent
  let mantissa := nearestQuotient scaledNumerator scaledDenominator
  let rounded : Binary64 :=
    if mantissa < mantissaLimit then ⟨mantissa, exponent⟩ else ⟨mantissa / 2, exponent + 1⟩
  if rounded.exponent ≤ greatestExponent then some rounded else none

def mul? (left right : Binary64) : Option Binary64 :=
  let exponent := left.exponent + right.exponent
  nearest? (left.mantissa * right.mantissa * Nat.pow 2 exponent.toNat)
    (Nat.pow 2 (-exponent).toNat)

def div? (left right : Binary64) : Option Binary64 :=
  let exponent := left.exponent - right.exponent
  nearest? (left.mantissa * Nat.pow 2 exponent.toNat)
    (right.mantissa * Nat.pow 2 (-exponent).toNat)

/-- The greatest power of ten in double precision. -/
def greatestTenPower : Nat :=
  308

def tenPower? (power : Nat) : Option Binary64 :=
  nearest? (Nat.pow 10 power) 1

/-- Multiplies by a power of ten in as few steps as double precision allows.

An exponent within reach takes one product or quotient.  Below that, quotients
by the greatest power of ten come first, until nothing is left.  Above it, only
zero stays in range. -/
def timesTenTo? (value : Binary64) (exponent : Int) : Option Binary64 :=
  if exponent.natAbs ≤ greatestTenPower then do
    let power ← tenPower? exponent.natAbs
    if 0 ≤ exponent then value.mul? power else value.div? power
  else if value.mantissa = 0 then
    some value
  else if 0 ≤ exponent then
    none
  else do
    let smaller ← value.div? (← tenPower? greatestTenPower)
    smaller.timesTenTo? (exponent + greatestTenPower)
termination_by exponent.natAbs
decreasing_by
  simp only [greatestTenPower] at *
  omega

/-- The value of a significand followed by a power of ten, unless it is too large. -/
def ofParts? (significand : Nat) (exponent : Int) : Option Binary64 := do
  (← nearest? significand 1).timesTenTo? exponent

end Binary64

end SemanticTokens.Numeral
