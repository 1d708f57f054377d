import Calculator.Token

namespace Calculator

structure InvalidLiteral where
  literal : String
  offset : Nat
  deriving DecidableEq

/-- What can be wrong with lexemes. An offset is that of the lexeme at fault. -/
inductive Fault where
  | endOfInput
  | unexpectedToken (token : Token) (offset : Nat)
  | missingOperator (offset : Nat)
  | leadingOperator (op : Operator) (offset : Nat)
  | divisionByZero (offset : Nat)
  | notANumber (op : Operator) (offset : Nat)
  deriving DecidableEq

inductive Failure where
  | literal (e : InvalidLiteral)
  | fault (f : Fault)
  deriving DecidableEq

inductive Failure.Kind where
  | invalidSyntax
  | divisionByZero
  deriving DecidableEq

def atOffset (offset : Nat) (detail : String) : String :=
  "Error at offset " ++ Numeral.ofNat offset ++ ": " ++ detail

def InvalidLiteral.message (e : InvalidLiteral) : String :=
  atOffset e.offset ("'" ++ e.literal ++ "' is not a valid integer literal.")

def Fault.message : Fault → String
  | endOfInput => "Error: Unexpected end of input."
  | unexpectedToken t o => atOffset o ("Unexpected token: " ++ t.text ++ ".")
  | missingOperator o => atOffset o "Expected an operator between operands."
  | leadingOperator op o => atOffset o ("Operator '" ++ op.text ++ "' is missing its left operand.")
  | divisionByZero o => atOffset o "Division by zero."
  | notANumber op o => atOffset o ("Result of '" ++ op.text ++ "' is not a number.")

namespace Failure

def Kind.text : Kind → String
  | invalidSyntax => "Invalid syntax"
  | divisionByZero => "Cannot divide by 0"

/-- A result that is not a number counts as invalid syntax too. -/
def kind : Failure → Kind
  | fault (.divisionByZero _) => .divisionByZero
  | _ => .invalidSyntax

def message : Failure → String
  | literal e => e.message
  | fault f => f.message

def text (e : Failure) : String := e.kind.text

end Failure

end Calculator
