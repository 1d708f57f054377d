namespace Calculator

inductive Operator where
  | add
  | sub
  | mul
  | div
  | pow
  deriving DecidableEq

namespace Operator

/-- A higher number binds tighter. Operators of one precedence group from the
left, powers included. -/
def precedence : Operator → Nat
  | add | sub => 1
  | mul | div => 2
  | pow => 3

theorem precedence_le_three (op : Operator) : op.precedence ≤ 3 := by
  cases op <;> decide

def symbol : Operator → Char
  | add => '+'
  | sub => '-'
  | mul => '*'
  | div => '/'
  | pow => '^'

def text (op : Operator) : String := String.singleton op.symbol

def name : Operator → String
  | add => "Add"
  | sub => "Sub"
  | mul => "Mul"
  | div => "Div"
  | pow => "Pow"

def ofSymbol? : Char → Option Operator
  | '+' => some add
  | '-' => some sub
  | '*' => some mul
  | '/' => some div
  | '^' => some pow
  | _ => none

theorem ofSymbol?_eq_some_iff {c : Char} {op : Operator} : ofSymbol? c = some op ↔ c = op.symbol := by
  constructor
  · intro h
    unfold ofSymbol? at h
    split at h <;> cases h <;> rfl
  · rintro rfl
    cases op <;> rfl

theorem symbol_injective {a b : Operator} (h : a.symbol = b.symbol) : a = b :=
  Option.some.inj ((ofSymbol?_eq_some_iff.2 rfl).symm.trans (ofSymbol?_eq_some_iff.2 h))

end Operator

/-- How weakly an operator binds where it stands: first by the number of groups open
around it, which is negative after stray closing parentheses, then by precedence. -/
structure Rank where
  depth : Int
  precedence : Nat
  deriving DecidableEq

def Operator.rankAt (op : Operator) (depth : Int) : Rank := ⟨depth, op.precedence⟩

namespace Rank

instance : LE Rank where
  le a b := a.depth < b.depth ∨ a.depth = b.depth ∧ a.precedence ≤ b.precedence

theorem le_def {a b : Rank} : a ≤ b ↔ a.depth < b.depth ∨ a.depth = b.depth ∧ a.precedence ≤ b.precedence :=
  Iff.rfl

theorem mk_le_mk_iff {depth : Int} {m n : Nat} : (⟨depth, m⟩ : Rank) ≤ ⟨depth, n⟩ ↔ m ≤ n := by
  simp only [le_def, Int.lt_irrefl, true_and, false_or]

instance : DecidableLE Rank := fun _ _ => decidable_of_iff _ le_def.symm

instance : Min Rank where
  min a b := if a ≤ b then a else b

theorem eq_of_fields {a b : Rank} (hd : a.depth = b.depth) (hp : a.precedence = b.precedence) : a = b := by
  cases a
  cases b
  cases hd
  cases hp
  rfl

instance : Std.IsLinearOrder Rank where
  le_refl a := by rw [le_def]; omega
  le_trans a b c := by simp only [le_def]; omega
  le_antisymm a b := by
    simp only [le_def]
    exact fun hab hba => eq_of_fields (by omega) (by omega)
  le_total a b := by simp only [le_def]; omega

instance : Std.LawfulOrderMin Rank where
  min_eq_or a b := by
    simp only [min]
    split <;> simp
  le_min_iff a b c := by
    simp only [min]
    split <;> simp only [le_def] at * <;> omega

end Rank

end Calculator
