import Calculator.Decimal
import Calculator.Operator

namespace Calculator

/-- A `blank` stands for nothing at all. Reading a source never yields one. -/
inductive Token where
  | integer (n : Int64)
  | operator (op : Operator)
  | openParen
  | closeParen
  | blank
  deriving DecidableEq

structure Lexeme where
  token : Token
  offset : Nat
  deriving DecidableEq

namespace Token

def text : Token → String
  | integer n => Numeral.ofInt n.toInt
  | operator op => op.text
  | openParen => "("
  | closeParen => ")"
  | blank => ""

def nesting : Token → Int
  | openParen => 1
  | closeParen => -1
  | _ => 0

def ofSymbol? : Char → Option Token
  | '(' => some openParen
  | ')' => some closeParen
  | c => (Operator.ofSymbol? c).map operator

end Token

end Calculator
