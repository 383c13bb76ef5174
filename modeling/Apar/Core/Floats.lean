/-
The float arithmetic of the sources. A library: nothing here is about payments.

Binary floats are a parameter: what is proved about programs that compute with them holds for every choice of these
operations, since it never depends on a rounding.
-/
import Apar.Core.JsonText

namespace Apar

/-- floats and the operations on them that the programs use -/
class PyFloat (F : Type) extends FloatText F, Add F, Sub F, Mul F, Div F where
  /-- `float(n)` -/
  ofInt : ℤ → F
  /-- `float(d)`, and the literal of that text -/
  ofDecimal : Decimal → F
  /-- `timedelta.total_seconds()`, of microseconds -/
  totalSeconds : ℤ → F
  /-- `sum(xs)` -/
  sum : List F → F
  /-- `Decimal(str(x))`, of a finite float -/
  decimal : F → Decimal
  /-- `x ** 2`, which raises `OverflowError` instead of an infinite result -/
  square : F → Option F
  lt : F → F → Bool
  sqrt : F → F
  sin : F → F
  cos : F → F
  pi : F
  /-- `a / b` of integers, `b` not zero -/
  trueDiv : ℤ → ℤ → F

/-- the functions of `math` on floats that are not negative -/
class FloatMath (F : Type) extends PyFloat F where
  /-- `math.log1p(x)` -/
  log1p : F → F
  /-- `abs(x)` -/
  abs : F → F

namespace PyFloat

variable {F : Type} [PyFloat F]

/-- `max(a, b)` -/
def max (a b : F) : F := if lt a b then b else a

/-- `[x ** 2 for x in xs]` -/
def squares (xs : List F) : Option (List F) := xs.mapM square

/-- rational arithmetic, exact wherever binary floats are; the sine and the cosine are those of whole turns -/
@[reducible] def rational : PyFloat ℚ where
  isFinite _ := true
  repr x := Decimal.intText x.num
  ofInt n := n
  ofDecimal d := d.value
  totalSeconds us := us / 1000000
  decimal x := ⟨x.num, 0⟩
  sum xs := xs.sum
  square x := some (x * x)
  lt a b := decide (a < b)
  sqrt x := x
  sin _ := 0
  cos _ := 1
  pi := 355 / 113
  trueDiv a b := a / b

end PyFloat

end Apar
