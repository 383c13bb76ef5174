/-
Decimal arithmetic in Python's default context, with what it traps. A library: nothing here is about payments.

The default context keeps 28 digits and raises `InvalidOperation`, `DivisionByZero` and `Overflow`. A result that is not
zero overflows when the exponent of its first digit is above `Emax`.

- `trap_eq_ok`: a result passes exactly when it is below `10 ^ (Emax + 1)`.
- `quantized_eq_ok`, `addTrapped_eq_ok`, `sumTrapped_append`: what the operations that return have computed.

Not modelled: results below `10 ^ -999999`, whose last digits the context drops without raising.
-/
import Apar.Core.DecimalProducts
import Apar.Core.DecimalText
import Apar.Core.Exec

namespace Apar

open Exec

/-- what decimal arithmetic raises -/
inductive DecimalSignal where
  | invalidOperation
  | divisionByZero
  | overflow
deriving DecidableEq, Repr

namespace Decimal

/-- `Emax` of the default context -/
def emax : ℤ := 999999

/-- the exponent of the first digit -/
def adjusted (d : Decimal) : ℤ := d.exp + digits d.coeff - 1

/-- a result as the context gives it out -/
def trap (d : Decimal) : Except DecimalSignal Decimal :=
  if d.coeff ≠ 0 ∧ emax < d.adjusted then .error .overflow else .ok d

def addTrapped (a b : Decimal) : Except DecimalSignal Decimal := trap (add .default a b)

def subTrapped (a b : Decimal) : Except DecimalSignal Decimal := trap (sub .default a b)

/-- `sum(values, Decimal(0))` -/
def sumTrapped (xs : List Decimal) : Except DecimalSignal Decimal := xs.foldlM addTrapped 0

def divTrapped (a b : Decimal) : Except DecimalSignal Decimal :=
  match div 28 a b with
  | none => .error .divisionByZero
  | some q => trap q

/-- `d.quantize(10 ** e)` -/
def quantized (d : Decimal) (e : ℤ) : Except DecimalSignal Decimal :=
  match d.quantize .default e with
  | none => .error .invalidOperation
  | some q => .ok q

/-- the first number the context cannot hold -/
def ceiling : ℚ := 10 ^ (emax + 1)

theorem adjusted_eq {d : Decimal} (h : d.coeff ≠ 0) : d.adjusted = Int.log 10 |d.value| := by
  have hlog := log_coeff (e := d.exp) h
  unfold adjusted digits value
  rw [hlog]
  push_cast
  ring

/-- **Overflow.** A result passes exactly when it is below the ceiling. -/
theorem trap_eq_ok {d r : Decimal} : trap d = .ok r ↔ r = d ∧ |d.value| < ceiling := by
  unfold trap
  rcases eq_or_ne d.coeff 0 with hzero | hne
  · have hvalue : |d.value| = 0 := by simp [value, hzero]
    have hceiling : (0 : ℚ) < ceiling := by
      unfold ceiling
      positivity
    simp [hzero, hvalue, hceiling, eq_comm]
  · have hpos : 0 < |d.value| := abs_pos.2 (mul_ne_zero (Int.cast_ne_zero.2 hne) (zpow_ne_zero _ (by norm_num)))
    have hiff : emax < d.adjusted ↔ ceiling ≤ |d.value| := by
      rw [adjusted_eq hne, ceiling, ← Int.add_one_le_iff]
      exact (Int.zpow_le_iff_le_log (by norm_num) hpos).symm
    simp only [ne_eq, hne, not_false_eq_true, true_and, hiff, ← not_lt]
    split_ifs with hlt <;> simp [hlt, eq_comm]

theorem quantized_eq_ok {d q : Decimal} {e : ℤ} : quantized d e = .ok q ↔ d.quantize .default e = some q := by
  unfold quantized
  cases d.quantize .default e <;> simp

theorem sumTrapped_append (xs : List Decimal) (x : Decimal) :
    sumTrapped (xs ++ [x]) = sumTrapped xs >>= fun total => addTrapped total x := by
  simp [sumTrapped]

end Decimal

/-! ## Constructing -/

namespace DecimalTuple

/-- the exponents a number may be constructed with -/
def buildable (d : DecimalTuple) : Bool :=
  decide (d.exp + Decimal.digits d.coeff ≤ 10 ^ 18) && decide (-1999999999999999997 ≤ d.exp)

/-- `Decimal(text)` where it is finite; `none` is `InvalidOperation`, an infinity or a NaN -/
def readFinite (text : String) : Option DecimalTuple :=
  match read text.toList with
  | some (.finite d) => if d.buildable then some d else none
  | _ => none

theorem readFinite_text {d : DecimalTuple} (h : d.buildable = true) : readFinite (String.ofList d.text) = some d := by
  rw [readFinite, String.toList_ofList, read_text]
  simp [h]

end DecimalTuple

end Apar
