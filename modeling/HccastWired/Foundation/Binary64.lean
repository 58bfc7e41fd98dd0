import HccastWired.Foundation.PyValue

/-!
# Arithmetic of the interpreter's numbers

Integers are exact. Every other result is the nearest number with 53 significant
bits, ties to even, as long as the exponent stays in its range.
-/

namespace HccastWired.Foundation

/-- The nearest integer of a number that is not negative, ties to even. -/
def roundHalfEven (q : Rat) : Int :=
  let low := q.floor
  let rest := q - low
  if rest < 1 / 2 then low
  else if 1 / 2 < rest then low + 1
  else if low % 2 = 0 then low else low + 1

/-- The power of two at most a positive number, as its exponent. -/
def binaryExponent (q : Rat) : Int :=
  let guess : Int := (Nat.log2 q.num.natAbs : Int) - Nat.log2 q.den
  if (2 : Rat) ^ guess ≤ q then guess else guess - 1

/-- The nearest number with 53 significant bits. -/
def roundBinary64 (q : Rat) : Rat :=
  if q = 0 then 0
  else
    let scale : Rat := (2 : Rat) ^ (52 - binaryExponent |q|)
    let magnitude := (roundHalfEven (|q| * scale) : Rat) / scale
    if q < 0 then -magnitude else magnitude

end HccastWired.Foundation
