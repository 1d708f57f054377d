import Calculator.Decimal
import Calculator.Failure

namespace Calculator

inductive Value where
  | integer (n : Int64)
  | real (x : Float)
  deriving DecidableEq

namespace Value

def toReal : Value → Float
  | integer n => Float.ofInt n.toInt
  | real x => x

def isZero : Value → Bool
  | integer n => n == 0
  | real x => x == 0

def isNaN : Value → Bool
  | integer _ => false
  | real x => x.isNaN

/-- An integer never equals a real. Reals compare as numbers, so the zeros are equal
and a value that is not a number differs from itself. -/
instance : BEq Value where
  beq
    | integer m, integer n => m == n
    | real x, real y => x == y
    | _, _ => false

def text : Value → String
  | integer n => Numeral.ofInt n.toInt
  | real x => (Binary64.ofFloat x).text

end Value

namespace Operator

/-- The exact sum, difference or product, if it has a 64-bit form. A quotient is never
an integer, and powers of integers have a rule of their own. -/
def onIntegers? : Operator → Int64 → Int64 → Option Int64
  | add, a, b => Integer.narrow? (a.toInt + b.toInt)
  | sub, a, b => Integer.narrow? (a.toInt - b.toInt)
  | mul, a, b => Integer.narrow? (a.toInt * b.toInt)
  | div, _, _ | pow, _, _ => none

def onReals : Operator → Float → Float → Float
  | add, a, b => a + b
  | sub, a, b => a - b
  | mul, a, b => a * b
  | div, a, b => a / b
  | pow, a, b => a ^ b

end Operator

namespace Value

def onReals (op : Operator) (left right : Value) : Value := real (op.onReals left.toReal right.toReal)

def scalar (op : Operator) : Value → Value → Value
  | integer a, integer b => ((op.onIntegers? a b).map integer).getD (onReals op (integer a) (integer b))
  | left, right => onReals op left right

def scalar? (op : Operator) (left right : Value) (offset : Nat) : Except Fault Value :=
  if op = .div ∧ right.isZero then .error (.divisionByZero offset) else .ok (scalar op left right)

def pow : Value → Value → Value
  | integer b, integer e => ((Integer.pow? b e).map integer).getD (onReals .pow (integer b) (integer e))
  | base, exponent => onReals .pow base exponent

def apply (op : Operator) (left right : Value) (offset : Nat) : Except Fault Value :=
  match op with
  | .pow => .ok (pow left right)
  | op => scalar? op left right offset

end Value

end Calculator
