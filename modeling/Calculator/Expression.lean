import Calculator.Evaluation

namespace Calculator

inductive Expression where
  | number (n : Int64) (offset : Nat)
  | group (start : Nat) (e : Expression) (stop : Nat)
  | binary (op : Operator) (offset : Nat) (left right : Expression)
  deriving DecidableEq

namespace Expression

def lexemes : Expression → List Lexeme
  | number n offset => [⟨.integer n, offset⟩]
  | group start e stop => ⟨.openParen, start⟩ :: e.lexemes ++ [⟨.closeParen, stop⟩]
  | binary op offset left right => left.lexemes ++ ⟨.operator op, offset⟩ :: right.lexemes

/-- How tightly the whole is held together. Numbers and groups never come apart. -/
def level : Expression → Nat
  | number .. | group .. => 4
  | binary op .. => op.precedence

/-- Operators of one precedence group from the left, and a looser one inside a tighter
one stands in a group. -/
def WellFormed : Expression → Prop
  | number .. => True
  | group _ e _ => e.WellFormed
  | binary op _ left right =>
      left.WellFormed ∧ right.WellFormed ∧ op.precedence ≤ left.level ∧ op.precedence < right.level

instance decidableWellFormed : (e : Expression) → Decidable e.WellFormed
  | number .. => isTrue trivial
  | group _ e _ => e.decidableWellFormed
  | binary _ _ left right =>
      have := left.decidableWellFormed
      have := right.decidableWellFormed
      inferInstanceAs (Decidable (_ ∧ _ ∧ _ ∧ _))

def compute : Expression → Logged Value
  | number n _ => return .integer n
  | group _ e _ => e.compute
  | binary op offset left right => do step op (← left.compute) (← right.compute) offset

def value : Expression → Except Fault Value
  | number n _ => .ok (.integer n)
  | group _ e _ => e.value
  | binary op offset left right => do operate op (← left.value) (← right.value) offset

theorem appends_compute (e : Expression) : Logged.Appends e.compute := by
  induction e with
  | number n => exact Logged.appends_pure _
  | group _ e _ ih => exact ih
  | binary op offset left right ihl ihr =>
      exact ihl.bind fun _ => ihr.bind fun _ => appends_step _ _ _ _

theorem outcome_compute (e : Expression) : e.compute.outcome = e.value := by
  induction e with
  | number n => rfl
  | group _ e _ ih => exact ih
  | binary op offset left right ihl ihr =>
      rw [compute, Logged.outcome_bind fun _ => right.appends_compute.bind fun _ => appends_step _ _ _ _, ihl]
      refine congrArg _ (funext fun l => ?_)
      rw [Logged.outcome_bind fun _ => appends_step _ _ _ _, ihr]
      exact congrArg _ (funext fun r => outcome_step _ _ _ _)

theorem lexemes_ne_nil (e : Expression) : e.lexemes ≠ [] := by
  cases e <;> simp [lexemes]

end Expression

end Calculator
