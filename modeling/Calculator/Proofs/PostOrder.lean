import Calculator.Proofs.Grammar
import Calculator.Proofs.LogOutline

namespace Calculator

open Logged

structure Operation where
  op : Operator
  offset : Nat
  left : Expression
  right : Expression

namespace Operation

def Makes (o : Operation) (r : Record) : Prop :=
  ∃ left right result, o.left.value = .ok left ∧ o.right.value = .ok right ∧
    operate o.op left right o.offset = .ok result ∧ r = .step left o.op right result

def Fails (o : Operation) (f : Fault) : Prop :=
  ∃ left right, o.left.value = .ok left ∧ o.right.value = .ok right ∧ operate o.op left right o.offset = .error f

/-- Operations are carried out one after the other up to the first that fails, and those before it are recorded. -/
inductive Runs : List Operation → List Record → Option Fault → Prop
  | done : Runs [] [] none
  | makes {o : Operation} {r : Record} {os : List Operation} {rs : List Record} {stop : Option Fault}
      (h : o.Makes r) (hr : Runs os rs stop) : Runs (o :: os) (r :: rs) stop
  | fails {o : Operation} {os : List Operation} {f : Fault} (h : o.Fails f) : Runs (o :: os) [] (some f)

namespace Runs

variable {os os' : List Operation} {rs rs' : List Record} {stop : Option Fault} {f : Fault}

theorem append (h : Runs os rs none) (h' : Runs os' rs' stop) : Runs (os ++ os') (rs ++ rs') stop := by
  induction os generalizing rs with
  | nil =>
      cases h
      exact h'
  | cons o os ih =>
      cases h with
      | makes ho hr => exact .makes ho (ih hr)

theorem length_eq (h : Runs os rs none) : rs.length = os.length := by
  induction os generalizing rs with
  | nil =>
      cases h
      rfl
  | cons o os ih =>
      cases h with
      | makes ho hr => exact congrArg Nat.succ (ih hr)

end Runs

end Operation

def operators (ts : List Lexeme) : List Operator :=
  ts.filterMap fun t => match t.token with
    | .operator op => some op
    | _ => none

namespace Expression

end Expression

end Calculator
